import TypeBundle.Proofs.Json.Range
import TypeBundle.Proofs.Snapshot.Wire
/-!
# Snapshots are read from their own JSON

Whatever a snapshot holds, its JSON is read, and all but its number literals are read as they are
(`readJson?_writeJson_reread`). So a snapshot whose number literals are finite and are read from their own texts is read
from its own JSON (`readJson?_writeJson`).
-/

namespace TypeBundle.Snapshot

open Json (Number Tree Value spelled)
open Document

/-- The literal as JSON has it: a number that is not finite has no text, others are what their texts are read as. -/
def rereadJson : Literal → Option Literal
  | .number x => (Number.ofFloat? x).map fun n => .number n.reread.toFloat
  | .boolean b => some (.boolean b)
  | .string s => some (.string s)

theorem toJsonItems_eq (items : List Outline) : Outline.toJsonItems items = items.map Outline.toJson := by
  induction items with
  | nil => rfl
  | cons o os ih => rw [Outline.toJsonItems, ih, List.map_cons]

theorem toJsonFields_eq (fields : List (String × Outline)) :
    Outline.toJsonFields fields = fields.map fun field => (field.1, field.2.toJson) := by
  induction fields with
  | nil => rfl
  | cons field fields ih =>
    obtain ⟨name, o⟩ := field
    rw [Outline.toJsonFields, Outline.toJsonField, ih, List.map_cons]

/-- JSON shows outlines, but for the numbers of literals. -/
theorem shows_json : Shows (fun o => spelled o.toJson) rereadJson where
  object fields := by
    rw [Outline.toJson, Tree.fields?_ofValue, toJsonFields_eq, List.map_map]
    rfl
  list items := by
    rw [Outline.toJson, Tree.items?_ofValue, toJsonItems_eq, List.map_map]
    rfl
  word n := by
    have hread : (Number.ofUInt64 n).numeral.value? = some (.ofUInt64 n) := Number.readsBack_integer _ _
    simp only [spelled, Outline.toJson, Tree.ofValue, Document.nat?, hread]
    rfl
  string s := by
    rw [Outline.toJson]
    exact Tree.string?_ofValue s
  literal l := by
    rw [Outline.toJson, Tree.isNull_ofValue]
    cases l with
    | boolean b => rfl
    | string s => simp [Outline.ofLiteral, rereadJson, spelled, Tree.ofValue, isNull, Document.literal?]
    | number x =>
      cases hx : Number.ofFloat? x with
      | none => simp [Outline.ofLiteral, rereadJson, hx, Value.orNull, isNull]
      | some n =>
        simp [Outline.ofLiteral, rereadJson, hx, Value.orNull, isNull, spelled, Tree.ofValue, Document.literal?,
          n.value?_numeral]
  listPresent items := by
    rw [Outline.toJson]
    exact Tree.isNull_ofValue _
  wordPresent n := by
    rw [Outline.toJson]
    exact Tree.isNull_ofValue _
  stringPresent s := by
    rw [Outline.toJson]
    exact Tree.isNull_ofValue _

/-- The JSON of a snapshot is read as the snapshot with its literals as JSON has them. -/
theorem readJson?_writeJson_reread (pretty : Bool) (s : Snapshot) :
    readJson? (s.writeJson pretty) = some (s.reread rereadJson) := by
  rw [readJson?, writeJson, Tree.read?_write Number.spells_numeral, Option.bind_some]
  exact of?_shown shows_json s

/-- The number literals of a snapshot are finite. -/
def NumbersFinite (s : Snapshot) : Prop :=
  ∀ e ∈ s.types, ∀ x, e.facts.literal? = some (.number x) → x.isFinite = true

/-- The finite number literals of a snapshot are read from their own texts. -/
def NumbersReadBack (s : Snapshot) : Prop :=
  ∀ e ∈ s.types, ∀ x finite, e.facts.literal? = some (.number x) → (Number.float x finite).ReadsBack

theorem rereadJson_eq_self {l : Literal} (h : ∀ x, l = .number x → ∃ finite, (Number.float x finite).ReadsBack) :
    rereadJson l = some l := by
  cases l with
  | boolean b => rfl
  | string s => rfl
  | number x =>
    obtain ⟨finite, hback⟩ := h x rfl
    have hreread : (Number.float x finite).reread = .float x finite := by
      rw [Number.reread, hback]
      rfl
    simp [rereadJson, Number.ofFloat?, finite, hreread, Number.toFloat]

/-- A snapshot whose number literals are finite and are read from their own texts is read from its own JSON. -/
theorem readJson?_writeJson {s : Snapshot} (hfinite : s.NumbersFinite) (hback : s.NumbersReadBack) (pretty : Bool) :
    readJson? (s.writeJson pretty) = some s := by
  rw [readJson?_writeJson_reread, reread_eq_self fun e he => ?_]
  cases hl : e.facts.literal? with
  | none => rfl
  | some l =>
    refine rereadJson_eq_self fun x hx => ?_
    subst hx
    exact ⟨hfinite e he x hl, hback e he x _ hl⟩

/-- Flags without names, a literal that is no integer, and members that are told apart and none. -/
def oddities : Snapshot where
  types := [
    ⟨⟨0xFFFFFFFFFFFFFFFF⟩, {
      flags := ⟨0xF8000001⟩
      literal? := some (.number ⟨0x3FF8000000000000⟩)
      declaredMembers? := some [] }⟩,
    ⟨⟨1⟩, { flags := .empty, objectFlags := ⟨0x80000010⟩, literal? := some (.string "") }⟩]
  symbols := [⟨⟨0⟩, {
    name := "a \"b\"\n"
    qualifiedName? := some ""
    flags := ⟨0x801⟩
    declarations := [⟨"", ⟨0xFFFFFFFF⟩⟩] }⟩]
  signatures := [⟨⟨2⟩, ⟨[], [⟨0⟩], ⟨1⟩⟩⟩]
  global? := none
  ambientModules := []

theorem readJson?_writeJson_oddities : oddities.NumbersFinite ∧ oddities.NumbersReadBack ∧
    ∀ pretty, readJson? (oddities.writeJson pretty) = some oddities := by
  have hhalf : ∀ e ∈ oddities.types, ∀ x, e.facts.literal? = some (.number x) → x = ⟨0x3FF8000000000000⟩ := by
    simp [oddities, eq_comm]
  have hfinite : oddities.NumbersFinite := fun e he x hx => by
    rw [hhalf e he x hx]
    decide
  have hback : oddities.NumbersReadBack := fun e he x finite hx => by
    obtain rfl := hhalf e he x hx
    have hread : (Number.float ⟨0x3FF8000000000000⟩ (by decide)).ReadsBack := by
      rw [Number.ReadsBack]
      decide +kernel
    exact hread
  exact ⟨hfinite, hback, readJson?_writeJson hfinite hback⟩

end TypeBundle.Snapshot
