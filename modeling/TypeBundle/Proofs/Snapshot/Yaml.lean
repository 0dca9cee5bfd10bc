import TypeBundle.Proofs.Snapshot.Wire
import TypeBundle.Proofs.Yaml.Node
/-!
# Snapshots are read from their own YAML

YAML shows outlines (`shows_yaml`), and those of snapshots can be written in it (`writable_outline`). So whatever a
snapshot holds, its YAML is read, and all but those literals that are not a number are read as they are
(`readYaml?_writeYaml`).
-/

namespace TypeBundle

/-- The literal as YAML has it: all numbers that are none are read as one. -/
def Snapshot.rereadYaml : Literal → Option Literal
  | .number x => some (.number (Yaml.rereadNumber x))
  | l => some l

namespace Yaml.Node

open Document
open Snapshot (rereadYaml)

theorem ofItems_eq (items : List Outline) : ofItems items = items.map ofOutline := by
  induction items with
  | nil => rfl
  | cons o os ih => rw [ofItems, ih, List.map_cons]

theorem fields?_ofFields (fields : List (String × Outline)) :
    fields? (mapping (ofFields fields)) = some (fields.map fun field => (field.1, ofOutline field.2)) := by
  change (ofFields fields).mapM _ = _
  induction fields with
  | nil => rfl
  | cons field fields ih =>
    obtain ⟨name, o⟩ := field
    rw [ofFields, ofField, List.mapM_cons, ih]
    rfl

theorem isNull_of_natural? {text : List Char} {n : ℕ} (h : Plain.natural? text = some n) :
    Plain.isNull text = false := by
  cases hnull : Plain.isNull text with
  | false => rfl
  | true =>
    simp only [Plain.isNull, List.contains_iff_mem, List.mem_cons, List.not_mem_nil, or_false] at hnull
    rcases hnull with rfl | rfl | rfl | rfl | rfl <;> cases h

/-- A string that is written without quotes is read as itself. -/
theorem literal?_of_plain {s : String} (h : Style.of s.toList = .plain) : Plain.literal? s = some (.string s) := by
  have hplain := (Scanner.of_eq_plain h).1
  simp only [Style.isPlainString, Bool.and_eq_true, beq_iff_eq] at hplain
  simp [Plain.literal?, hplain.1]

theorem isNull_ofString (s : String) : isNull (ofString s) = false := by
  cases hstyle : Style.of s.toList with
  | plain => simp [ofString, hstyle, isNull, isNull_eq_false (literal?_of_plain hstyle)]
  | single | double | literal => simp [ofString, hstyle, isNull]

theorem literal?_ofString (s : String) : literal? (ofString s) = some (.string s) := by
  cases hstyle : Style.of s.toList with
  | plain => simp [ofString, hstyle, literal?, literal?_of_plain hstyle]
  | single | double | literal =>
    rw [ofString, hstyle]
    rfl

/-- Literals are present, and are read as YAML has them. -/
theorem ofLiteral_spec (l : Literal) : isNull (ofLiteral l) = false ∧ literal? (ofLiteral l) = rereadYaml l := by
  have hplain {text : String} {l : Literal} (h : Plain.literal? text = some l) :
      isNull (scalar true text) = false ∧ literal? (scalar true text) = some l := ⟨isNull_eq_false h, h⟩
  cases l with
  | boolean b => exact hplain (literal?_bool b)
  | number x => exact hplain (literal?_write x)
  | string s => exact ⟨isNull_ofString s, literal?_ofString s⟩

/-- YAML shows outlines, but for the numbers that are none. -/
theorem shows_yaml : Shows ofOutline rereadYaml where
  object fields := by rw [ofOutline, fields?_ofFields]
  list items := by
    rw [ofOutline, ofItems_eq]
    rfl
  word n := by simp [ofOutline, nat?, natural?_decimal]
  string s := by
    rw [ofOutline, ofString]
    rfl
  literal l := by
    obtain ⟨hpresent, hliteral⟩ := ofLiteral_spec l
    rw [ofOutline, hpresent, hliteral]
    cases l <;> rfl
  listPresent items := by
    rw [ofOutline]
    rfl
  wordPresent n := by simp [ofOutline, isNull, isNull_of_natural? (natural?_decimal _)]
  stringPresent s := by rw [ofOutline, isNull_ofString]

end Yaml.Node

namespace Snapshot

open Yaml (Writable IsName isList)

/-! ## What is written -/

/-- The value of a field can be written, if there is one. -/
def IsWritten (o? : Option Outline) : Prop := ∀ o ∈ o?, Writable o

@[simp] theorem isWritten_some {o : Outline} : IsWritten (some o) ↔ Writable o := by simp [IsWritten]

@[simp] theorem isWritten_ite {c : Prop} [Decidable c] {o : Outline} (ho : Writable o) :
    IsWritten (if c then none else some o) := by
  split
  · exact nofun
  · exact isWritten_some.2 ho

@[simp] theorem isWritten_map {α : Type} {make : α → Outline} {a? : Option α} (h : ∀ a, Writable (make a)) :
    IsWritten (a?.map make) := by
  cases a? with
  | none => exact nofun
  | some a => exact isWritten_some.2 (h a)

@[simp] theorem writable_typeWord (id : TypeId) : Writable (typeWord id) := .word id.val

@[simp] theorem writable_symbolWord (id : SymbolId) : Writable (symbolWord id) := .word id.val

theorem writable_map {α : Type} {make : α → Outline} {as : List α} (h : ∀ a, Writable (make a))
    (hlist : ∀ a, isList (make a) = false) : Writable (.list (as.map make)) :=
  .list (List.forall_mem_map.2 fun a _ => h a) (List.forall_mem_map.2 fun a _ => hlist a)

@[simp] theorem writable_symbolList (ids : List SymbolId) : Writable (symbolList ids) :=
  writable_map writable_symbolWord fun _ => rfl

theorem isWritten_nonEmpty? (ns : List UInt64) : IsWritten (Outline.nonEmpty? ns) := by
  cases ns with
  | nil => exact nofun
  | cons n ns => exact isWritten_some.2 (writable_map .word fun _ => rfl)

@[simp] theorem isWritten_typeList? (ids : List TypeId) : IsWritten (typeList? ids) := isWritten_nonEmpty? _

@[simp] theorem isWritten_signatureList? (ids : List SignatureId) : IsWritten (signatureList? ids) :=
  isWritten_nonEmpty? _

/-- Objects are written if their names are plain and the fields that have a value can be. -/
theorem writable_objectOf (fields : List (String × Option Outline)) {name : String} {o : Outline}
    (hfirst : fields.head? = some (name, some o)) (hnames : ∀ f ∈ fields, IsName f.1)
    (h : ∀ f ∈ fields, IsWritten f.2) : Writable (.objectOf fields) := by
  have hfield : ∀ f ∈ (fields.filterMap fun f => f.2.map fun o => (f.1, o)), (f.1, some f.2) ∈ fields := by
    rintro ⟨name, o⟩ hf
    obtain ⟨⟨name', o?⟩, hmem, hsome⟩ := List.mem_filterMap.1 hf
    obtain ⟨o', rfl, heq⟩ := Option.map_eq_some_iff.1 hsome
    cases heq
    exact hmem
  have hmem := List.mem_of_mem_head? hfirst
  exact .object (List.ne_nil_of_mem (List.mem_filterMap.2 ⟨_, hmem, rfl⟩)) (fun f hf => hnames _ (hfield f hf))
    fun f hf => h _ (hfield f hf) _ rfl

theorem writable_outlineType (e : TypeEntry) : Writable (outlineType e) := by
  obtain ⟨i, t⟩ := e
  refine writable_objectOf (typeFields i t) rfl ?_ ?_
  · simp only [typeFields, List.forall_mem_cons, List.not_mem_nil, false_imp_iff, implies_true, and_true]
    decide
  · simp [typeFields, Writable.string, Writable.literal]

@[simp] theorem writable_outlineDeclaration (d : Declaration) : Writable (outlineDeclaration d) := by
  refine writable_objectOf (declarationFields d) rfl ?_ ?_
  · simp only [declarationFields, List.forall_mem_cons, List.not_mem_nil, false_imp_iff, implies_true, and_true]
    decide
  · simp [declarationFields, Writable.string]

theorem writable_outlineSymbol (e : SymbolEntry) : Writable (outlineSymbol e) := by
  obtain ⟨i, x⟩ := e
  have hdeclarations : Writable (.list (x.declarations.map outlineDeclaration)) :=
    writable_map writable_outlineDeclaration fun _ => rfl
  refine writable_objectOf (symbolFields i x) rfl ?_ ?_
  · simp only [symbolFields, List.forall_mem_cons, List.not_mem_nil, false_imp_iff, implies_true, and_true]
    decide
  · simp [symbolFields, Writable.string, hdeclarations]

theorem writable_outlineSignature (e : SignatureEntry) : Writable (outlineSignature e) := by
  obtain ⟨i, g⟩ := e
  refine writable_objectOf (signatureFields i g) rfl ?_ ?_
  · simp only [signatureFields, List.forall_mem_cons, List.not_mem_nil, false_imp_iff, implies_true, and_true]
    decide
  · simp [signatureFields, Writable.word]

/-- Every snapshot can be written as YAML. -/
theorem writable_outline (s : Snapshot) : Writable s.outline := by
  have htypes : Writable (.list (s.types.map outlineType)) := writable_map writable_outlineType fun _ => rfl
  have hsymbols : Writable (.list (s.symbols.map outlineSymbol)) := writable_map writable_outlineSymbol fun _ => rfl
  have hsignatures : Writable (.list (s.signatures.map outlineSignature)) :=
    writable_map writable_outlineSignature fun _ => rfl
  refine writable_objectOf s.fields rfl ?_ ?_
  · simp only [Snapshot.fields, List.forall_mem_cons, List.not_mem_nil, false_imp_iff, implies_true, and_true]
    decide
  · simp [Snapshot.fields, htypes, hsymbols, hsignatures]

/-- The YAML of a snapshot is read as the snapshot with its literals as YAML has them. -/
theorem readYaml?_writeYaml (s : Snapshot) : readYaml? s.writeYaml = some (s.reread rereadYaml) := by
  rw [readYaml?, writeYaml, outline, Outline.objectOf, Yaml.Node.read?_write (writable_outline s), Option.bind_some]
  exact of?_shown Yaml.Node.shows_yaml s

end Snapshot

end TypeBundle
