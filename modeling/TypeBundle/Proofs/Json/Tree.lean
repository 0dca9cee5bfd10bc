import TypeBundle.Proofs.Document
import TypeBundle.Proofs.Json.Float
import TypeBundle.Proofs.Json.Reading
/-!
# What a tree stands for

The tree of a value stands for the value, but for the numbers: a number is spelled and stands for what its numeral
stands for (`value?_ofValue`). What a tree stands for nests no deeper than the tree may (`value?_sound`).
-/

namespace TypeBundle.Json

open Document

/-- The number is read from its own text. -/
def Number.ReadsBack (n : Number) : Prop := n.numeral.value? = some n

/-- Integers are read from their own texts. -/
theorem Number.readsBack_integer (n : Int) (fits : -0x8000000000000000 ≤ n ∧ n < 0x10000000000000000) :
    (Number.integer n fits).ReadsBack := by
  have hspells : Numeral.Spells (Numeral.spell (decide (n < 0)) (Text.decimal n.natAbs) [] none) _ :=
    Numeral.spells_spell (Numeral.isWhole_decimal n.natAbs) (by simp)
  rw [ReadsBack, numeral, write, Numeral.integer_eq_spell, hspells.read]
  exact Numeral.value?_integer n fits

namespace Tree

variable {limit : Nat}

theorem values?_eq (ts : List Tree) : values? limit ts = ts.mapM (value? limit) := by
  induction ts with
  | nil => simp [values?]
  | cons t ts ih => simp [values?, ih]

theorem fieldValues?_eq (fields : List (Option String × Tree)) :
    fieldValues? limit fields = fields.mapM (fieldValue? limit) := by
  induction fields with
  | nil => simp [fieldValues?]
  | cons field fields ih => simp [fieldValues?, ih]

/-- What a tree stands for nests no deeper than the tree may. -/
theorem value?_sound : ∀ {limit : Nat} {t : Tree} {v : Value}, t.value? limit = some v → v.nesting ≤ limit
  | _, null, v, h => by
    obtain rfl : .null = v := by simpa [value?] using h
    simp
  | _, bool b, v, h => by
    obtain rfl : .bool b = v := by simpa [value?] using h
    simp
  | _, number t, v, h => by
    obtain ⟨n, -, rfl⟩ : ∃ n, t.value? = some n ∧ .number n = v := by simpa [value?] using h
    simp
  | _, string t, v, h => by
    obtain ⟨s, -, rfl⟩ : ∃ s, t = some s ∧ .string s = v := by simpa [value?] using h
    simp
  | 0, array _, _, h => by simp [value?] at h
  | 0, object _, _, h => by simp [value?] at h
  | limit + 1, array items, _, h => by
    obtain ⟨vs, hvs, rfl⟩ := Option.map_eq_some_iff.1 h
    rw [values?_eq] at hvs
    refine Value.nesting_array_le.2 fun v hv => ?_
    obtain ⟨t, -, ht⟩ := exists_of_mapM hvs v hv
    exact value?_sound ht
  | limit + 1, object fields, _, h => by
    obtain ⟨vs, hvs, rfl⟩ := Option.map_eq_some_iff.1 h
    rw [fieldValues?_eq] at hvs
    refine Value.nesting_object_le.2 fun v hv => ?_
    obtain ⟨⟨name?, t⟩, -, ht⟩ := exists_of_mapM hvs v hv
    simp only [fieldValue?, Option.bind_eq_bind, Option.bind_eq_some_iff, Option.pure_def, Option.some.injEq] at ht
    obtain ⟨name, -, w, hw, rfl⟩ := ht
    exact value?_sound hw

variable {f : Number → Number} {numeral : Number → Numeral}

/-- The tree of a value stands for the value, with the numbers that its numerals stand for. -/
theorem value?_ofValue {v : Value} (hnumbers : ∀ n ∈ v.numbers, (numeral n).value? = some (f n))
    (h : v.nesting ≤ limit) : (ofValue numeral v).value? limit = some (v.mapNumbers f) := by
  induction v using Value.itemInduction generalizing limit with
  | null | bool b | string s => simp [ofValue, value?]
  | number n =>
    have hn := hnumbers n (by simp)
    simp [ofValue, value?, hn]
  | array items ih =>
    cases limit with
    | zero => exact absurd (Nat.le_zero.1 h) (Value.nesting_array_ne_zero items)
    | succ limit =>
      have hitems : (items.map (ofValue numeral)).mapM (value? limit) = some (items.map (Value.mapNumbers f)) :=
        mapM_map fun v hv => ih v hv (fun n hn => hnumbers n (by simpa using ⟨v, hv, hn⟩))
          (Value.nesting_array_le.1 h v hv)
      simp [ofValue, value?, Reading.ofValues_eq, values?_eq, hitems]
  | object fields ih =>
    cases limit with
    | zero => exact absurd (Nat.le_zero.1 h) (Value.nesting_object_ne_zero fields)
    | succ limit =>
      have hfields : (fields.map (ofField numeral)).mapM (fieldValue? limit) =
          some (fields.map fun field => (field.1, field.2.mapNumbers f)) :=
        mapM_map fun field hfield => by
          have hv := ih field hfield (fun n hn => hnumbers n (by simpa using ⟨field.1, field.2, hfield, hn⟩))
            (Value.nesting_object_le.1 h field hfield)
          obtain ⟨name, v⟩ := field
          simp [ofField, fieldValue?, hv]
      simp [ofValue, value?, Reading.ofFields_eq, fieldValues?_eq, hfields]

/-- What the tree of a value stands for, the value nests as deep. -/
theorem nesting_le_of_value? {v w : Value} (h : (ofValue numeral v).value? limit = some w) : v.nesting ≤ limit := by
  induction v using Value.itemInduction generalizing limit w with
  | null | bool b | number n | string s => simp
  | array items ih =>
    cases limit with
    | zero => simp [ofValue, value?] at h
    | succ limit =>
      simp only [ofValue, value?, Reading.ofValues_eq, values?_eq, Option.map_eq_some_iff] at h
      obtain ⟨vs, hvs, -⟩ := h
      refine Value.nesting_array_le.2 fun v hv => ?_
      obtain ⟨w, hw⟩ := forall_of_mapM hvs _ (List.mem_map_of_mem hv)
      exact ih v hv hw
  | object fields ih =>
    cases limit with
    | zero => simp [ofValue, value?] at h
    | succ limit =>
      simp only [ofValue, value?, Reading.ofFields_eq, fieldValues?_eq, Option.map_eq_some_iff] at h
      obtain ⟨vs, hvs, -⟩ := h
      refine Value.nesting_object_le.2 fun field hfield => ?_
      obtain ⟨w, hw⟩ := forall_of_mapM hvs _ (List.mem_map_of_mem hfield)
      obtain ⟨name, v⟩ := field
      simp only [ofField, fieldValue?, Option.bind_eq_bind, Option.bind_some, Option.bind_eq_some_iff] at hw
      obtain ⟨w', hw', -⟩ := hw
      exact ih _ hfield hw'

/-! ## Trees as documents -/

@[simp] theorem isNull_ofValue (v : Value) : isNull (ofValue numeral v) = isNull v := by
  cases v <;> simp [ofValue, isNull]

@[simp] theorem bool?_ofValue (b : Bool) : bool? (ofValue numeral (.bool b)) = some b := by simp [ofValue, bool?]

@[simp] theorem string?_ofValue (s : String) : string? (ofValue numeral (.string s)) = some s := by
  simp [ofValue, string?]

@[simp] theorem items?_ofValue (items : List Value) :
    items? (ofValue numeral (.array items)) = some (items.map (ofValue numeral)) := by
  simp [ofValue, items?, Reading.ofValues_eq]

@[simp] theorem fields?_ofValue (fields : List (String × Value)) :
    fields? (ofValue numeral (.object fields)) = some (fields.map fun field => (field.1, ofValue numeral field.2)) := by
  rw [ofValue, Reading.ofFields_eq]
  refine mapM_map fun field _ => ?_
  obtain ⟨name, v⟩ := field
  simp [ofField]

@[simp] theorem fieldsOf?_ofValue (names : List String) (fields : List (String × Value)) :
    fieldsOf? names (ofValue numeral (.object fields)) =
      some (fields.map fun field => (field.1, ofValue numeral field.2)) :=
  fieldsOf?_of_fields? (fields?_ofValue fields)

end Tree

/-- The tree of a value as it is spelled. -/
abbrev spelled (v : Value) : Tree := Tree.ofValue Number.numeral v

end TypeBundle.Json
