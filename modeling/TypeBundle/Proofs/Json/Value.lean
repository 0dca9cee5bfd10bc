import Mathlib.Data.String.Basic
import Mathlib.Order.Lattice
import TypeBundle.Json.Value
/-!
# What JSON values are made of

A value is a scalar or made of its items and fields, and what holds of a value when it holds of these holds of
every value (`Value.itemInduction`). How deep the arrays and objects of a value nest, which numbers it holds and
whether its fields are in order is said along the same lines. The canonical form of a value is in order and
nests no deeper (`inOrder_canonical`, `nesting_canonical_le`), and what is in order is its own canonical form
(`InOrder.canonical_eq`).
-/

namespace TypeBundle.Json.Value

/-- What holds of the scalars, and of arrays and objects when it holds of what is in them, holds of every value. -/
@[elab_as_elim]
theorem itemInduction {P : Value → Prop} (null : P null) (bool : ∀ b, P (bool b)) (number : ∀ n, P (number n))
    (string : ∀ s, P (string s)) (array : ∀ items, (∀ v ∈ items, P v) → P (array items))
    (object : ∀ fields, (∀ field ∈ fields, P field.2) → P (object fields)) (v : Value) : P v := by
  cases v with
  | null => exact null
  | bool b => exact bool b
  | number n => exact number n
  | string s => exact string s
  | array items => exact array items fun v _ => itemInduction null bool number string array object v
  | object fields => exact object fields fun field _ => itemInduction null bool number string array object field.2
termination_by sizeOf v
decreasing_by
  · have hlt := List.sizeOf_lt_of_mem ‹_›
    simp only [Value.array.sizeOf_spec]
    omega
  · have hlt := List.sizeOf_lt_of_mem ‹field ∈ fields›
    obtain ⟨name, v⟩ := field
    simp only [Prod.mk.sizeOf_spec] at hlt
    simp only [Value.object.sizeOf_spec]
    omega

/-! ## Nesting -/

mutual
/-- How deep the arrays and objects of a value nest. -/
def nesting : Value → Nat
  | array items => nestingOfItems items + 1
  | object fields => nestingOfFields fields + 1
  | _ => 0

def nestingOfItems : List Value → Nat
  | [] => 0
  | v :: vs => max (nesting v) (nestingOfItems vs)

def nestingOfFields : List (String × Value) → Nat
  | [] => 0
  | field :: fields => max (nestingOfField field) (nestingOfFields fields)

def nestingOfField : String × Value → Nat
  | (_, v) => nesting v
end

section Nesting

variable {k : Nat}

@[simp] theorem nesting_null : nesting null = 0 := rfl
@[simp] theorem nesting_bool (b : Bool) : nesting (bool b) = 0 := rfl
@[simp] theorem nesting_number (n : Number) : nesting (number n) = 0 := rfl
@[simp] theorem nesting_string (s : String) : nesting (string s) = 0 := rfl

theorem nestingOfItems_le {items : List Value} : nestingOfItems items ≤ k ↔ ∀ v ∈ items, v.nesting ≤ k := by
  induction items with
  | nil => simp [nestingOfItems]
  | cons v vs ih => simp [nestingOfItems, ih]

theorem nestingOfFields_le {fields : List (String × Value)} :
    nestingOfFields fields ≤ k ↔ ∀ field ∈ fields, field.2.nesting ≤ k := by
  induction fields with
  | nil => simp [nestingOfFields]
  | cons field fields ih =>
    obtain ⟨name, v⟩ := field
    simp only [nestingOfFields, nestingOfField, sup_le_iff, ih, List.forall_mem_cons]

@[simp] theorem nesting_array_ne_zero (items : List Value) : (array items).nesting ≠ 0 := by simp [nesting]

@[simp] theorem nesting_object_ne_zero (fields : List (String × Value)) : (object fields).nesting ≠ 0 := by
  simp [nesting]

@[simp] theorem nesting_array_le {items : List Value} : (array items).nesting ≤ k + 1 ↔ ∀ v ∈ items, v.nesting ≤ k := by
  rw [nesting, Nat.add_le_add_iff_right, nestingOfItems_le]

@[simp] theorem nesting_object_le {fields : List (String × Value)} :
    (object fields).nesting ≤ k + 1 ↔ ∀ field ∈ fields, field.2.nesting ≤ k := by
  rw [nesting, Nat.add_le_add_iff_right, nestingOfFields_le]

theorem nesting_item_le {items : List Value} (h : (array items).nesting ≤ k) : ∀ v ∈ items, v.nesting ≤ k := by
  cases k with
  | zero => exact absurd (Nat.le_zero.1 h) (nesting_array_ne_zero items)
  | succ k => exact fun v hv => Nat.le_succ_of_le (nesting_array_le.1 h v hv)

theorem nesting_field_le {fields : List (String × Value)} (h : (object fields).nesting ≤ k) :
    ∀ field ∈ fields, field.2.nesting ≤ k := by
  cases k with
  | zero => exact absurd (Nat.le_zero.1 h) (nesting_object_ne_zero fields)
  | succ k => exact fun field hfield => Nat.le_succ_of_le (nesting_object_le.1 h field hfield)

/-- An array nests no deeper than another if none of its items does. -/
theorem nesting_array_le_array {ws vs : List Value} (h : ∀ w ∈ ws, ∃ v ∈ vs, w.nesting ≤ v.nesting) :
    (array ws).nesting ≤ (array vs).nesting := by
  rw [nesting.eq_def (array vs), nesting_array_le]
  intro w hw
  obtain ⟨v, hv, hle⟩ := h w hw
  exact hle.trans (nestingOfItems_le.1 le_rfl v hv)

/-- An object nests no deeper than another if none of its fields does. -/
theorem nesting_object_le_object {ws vs : List (String × Value)}
    (h : ∀ w ∈ ws, ∃ v ∈ vs, w.2.nesting ≤ v.2.nesting) : (object ws).nesting ≤ (object vs).nesting := by
  rw [nesting.eq_def (object vs), nesting_object_le]
  intro w hw
  obtain ⟨v, hv, hle⟩ := h w hw
  exact hle.trans (nestingOfFields_le.1 le_rfl v hv)

/-- An object nests no deeper than an array if none of its fields nests deeper than the items. -/
theorem nesting_object_le_array {ws : List (String × Value)} {vs : List Value}
    (h : ∀ w ∈ ws, ∃ v ∈ vs, w.2.nesting ≤ v.nesting) : (object ws).nesting ≤ (array vs).nesting := by
  rw [nesting.eq_def (array vs), nesting_object_le]
  intro w hw
  obtain ⟨v, hv, hle⟩ := h w hw
  exact hle.trans (nestingOfItems_le.1 le_rfl v hv)

end Nesting

/-! ## Numbers -/

mutual
/-- The numbers of a value, in order. -/
def numbers : Value → List Number
  | number n => [n]
  | array items => numbersOfItems items
  | object fields => numbersOfFields fields
  | _ => []

def numbersOfItems : List Value → List Number
  | [] => []
  | v :: vs => numbers v ++ numbersOfItems vs

def numbersOfFields : List (String × Value) → List Number
  | [] => []
  | field :: fields => numbersOfField field ++ numbersOfFields fields

def numbersOfField : String × Value → List Number
  | (_, v) => numbers v
end

@[simp] theorem numbers_number (n : Number) : numbers (number n) = [n] := rfl

@[simp] theorem numbers_array (items : List Value) : numbers (array items) = items.flatMap numbers := by
  rw [numbers]
  induction items with
  | nil => simp [numbersOfItems]
  | cons v vs ih => simp [numbersOfItems, ih]

@[simp] theorem numbers_object (fields : List (String × Value)) :
    numbers (object fields) = fields.flatMap fun field => field.2.numbers := by
  rw [numbers]
  induction fields with
  | nil => simp [numbersOfFields]
  | cons field fields ih =>
    obtain ⟨name, v⟩ := field
    simp [numbersOfFields, numbersOfField, ih]

mutual
/-- The value with each number changed. -/
def mapNumbers (f : Number → Number) : Value → Value
  | number n => number (f n)
  | array items => array (mapNumbersOfItems f items)
  | object fields => object (mapNumbersOfFields f fields)
  | v => v

def mapNumbersOfItems (f : Number → Number) : List Value → List Value
  | [] => []
  | v :: vs => mapNumbers f v :: mapNumbersOfItems f vs

def mapNumbersOfFields (f : Number → Number) : List (String × Value) → List (String × Value)
  | [] => []
  | field :: fields => mapNumbersOfField f field :: mapNumbersOfFields f fields

def mapNumbersOfField (f : Number → Number) : String × Value → String × Value
  | (name, v) => (name, mapNumbers f v)
end

section MapNumbers

variable (f : Number → Number)

@[simp] theorem mapNumbers_null : mapNumbers f null = null := rfl
@[simp] theorem mapNumbers_bool (b : Bool) : mapNumbers f (bool b) = bool b := rfl
@[simp] theorem mapNumbers_number (n : Number) : mapNumbers f (number n) = number (f n) := rfl
@[simp] theorem mapNumbers_string (s : String) : mapNumbers f (string s) = string s := rfl

@[simp] theorem mapNumbers_array (items : List Value) :
    mapNumbers f (array items) = array (items.map (mapNumbers f)) := by
  rw [mapNumbers]
  congr 1
  induction items with
  | nil => simp [mapNumbersOfItems]
  | cons v vs ih => simp [mapNumbersOfItems, ih]

@[simp] theorem mapNumbers_object (fields : List (String × Value)) :
    mapNumbers f (object fields) = object (fields.map fun field => (field.1, mapNumbers f field.2)) := by
  rw [mapNumbers]
  congr 1
  induction fields with
  | nil => simp [mapNumbersOfFields]
  | cons field fields ih =>
    obtain ⟨name, v⟩ := field
    simp [mapNumbersOfFields, mapNumbersOfField, ih]

variable {f}

/-- Changing numbers to themselves changes nothing. -/
theorem mapNumbers_eq_self {v : Value} (h : ∀ n ∈ v.numbers, f n = n) : v.mapNumbers f = v := by
  induction v using itemInduction with
  | null | bool b | string s => simp
  | number n => simpa using h
  | array items ih =>
    simp only [numbers_array, List.mem_flatMap] at h
    rw [mapNumbers_array, List.map_congr_left fun v hv => ih v hv fun n hn => h n ⟨v, hv, hn⟩]
    simp
  | object fields ih =>
    simp only [numbers_object, List.mem_flatMap] at h
    rw [mapNumbers_object, List.map_congr_left fun field hfield => by
      rw [ih field hfield fun n hn => h n ⟨field, hfield, hn⟩]]
    simp

theorem nesting_mapNumbers_le (v : Value) (k : Nat) : (v.mapNumbers f).nesting ≤ k ↔ v.nesting ≤ k := by
  induction v using itemInduction generalizing k with
  | null | bool b | number n | string s => simp
  | array items ih =>
    cases k with
    | zero => simp
    | succ k =>
      simp only [mapNumbers_array, nesting_array_le, List.forall_mem_map]
      exact forall₂_congr fun v hv => ih v hv k
  | object fields ih =>
    cases k with
    | zero => simp
    | succ k =>
      simp only [mapNumbers_object, nesting_object_le, List.forall_mem_map]
      exact forall₂_congr fun field hfield => ih field hfield k

end MapNumbers

/-! ## Order -/

/-- The names of the fields ascend. -/
def Ascending (fields : List (String × Value)) : Prop := (fields.map (·.1)).Pairwise (· < ·)

/-- The fields of every object inside ascend by name. -/
inductive InOrder : Value → Prop
  | null : InOrder null
  | bool (b : Bool) : InOrder (bool b)
  | number (n : Number) : InOrder (number n)
  | string (s : String) : InOrder (string s)
  | array {items : List Value} : (∀ v ∈ items, InOrder v) → InOrder (array items)
  | object {fields : List (String × Value)} : Ascending fields → (∀ field ∈ fields, InOrder field.2) →
      InOrder (object fields)

theorem InOrder.mapNumbers {f : Number → Number} {v : Value} (h : v.InOrder) : (v.mapNumbers f).InOrder := by
  induction h with
  | null => simpa using .null
  | bool b => simpa using .bool b
  | number n => simpa using .number (f n)
  | string s => simpa using .string s
  | array _ ih => simpa using .array (by simpa using ih)
  | object hfields _ ih =>
    rw [mapNumbers_object]
    refine .object (by simpa [Ascending, List.map_map, Function.comp_def] using hfields) ?_
    simp only [List.forall_mem_map]
    exact ih

theorem mem_insertField {name : String} {v : Value} {fields : List (String × Value)} {field : String × Value}
    (h : field ∈ insertField name v fields) : field = (name, v) ∨ field ∈ fields := by
  induction fields with
  | nil => simpa [insertField] using h
  | cons first fields ih =>
    obtain ⟨n, w⟩ := first
    unfold insertField at h
    split at h
    · simpa only [List.mem_cons] using h
    · split at h
      · exact (List.mem_cons.1 h).imp_right (List.mem_cons_of_mem _)
      · rcases List.mem_cons.1 h with rfl | h
        · exact .inr List.mem_cons_self
        · exact (ih h).imp_right (List.mem_cons_of_mem _)

theorem Ascending.insertField {fields : List (String × Value)} (h : Ascending fields) (name : String) (v : Value) :
    Ascending (insertField name v fields) := by
  induction fields with
  | nil => simp [Value.insertField, Ascending]
  | cons first fields ih =>
    obtain ⟨n, w⟩ := first
    have hall := h
    simp only [Ascending, List.map_cons, List.pairwise_cons, List.mem_map] at hall
    obtain ⟨hn, hfields⟩ := hall
    unfold Value.insertField
    split
    · rename_i hlt
      refine List.pairwise_cons.2 ⟨?_, h⟩
      simp only [List.map_cons, List.mem_cons, List.mem_map]
      rintro m (rfl | ⟨field, hfield, rfl⟩)
      · exact hlt
      · exact hlt.trans (hn _ ⟨field, hfield, rfl⟩)
    · split
      · rename_i heq
        refine List.pairwise_cons.2 ⟨?_, hfields⟩
        rw [heq]
        simpa using hn
      · rename_i hlt hne
        refine List.pairwise_cons.2 ⟨?_, ih hfields⟩
        simp only [List.mem_map]
        rintro m ⟨field, hfield, rfl⟩
        rcases mem_insertField hfield with rfl | hfield
        · exact lt_of_le_of_ne (not_lt.1 hlt) (Ne.symm hne)
        · exact hn _ ⟨field, hfield, rfl⟩

/-- A field that comes after all others is put last. -/
theorem insertField_of_forall_lt {name : String} {v : Value} {fields : List (String × Value)}
    (h : ∀ field ∈ fields, field.1 < name) : insertField name v fields = fields ++ [(name, v)] := by
  induction fields with
  | nil => rfl
  | cons first fields ih =>
    obtain ⟨n, w⟩ := first
    simp only [List.forall_mem_cons] at h
    rw [insertField, if_neg h.1.not_gt, if_neg h.1.ne', ih h.2, List.cons_append]

/-! ## The canonical form -/

@[simp] theorem canonical_array (items : List Value) : canonical (array items) = array (items.map canonical) := by
  rw [canonical]
  congr 1
  induction items with
  | nil => simp [canonicalItems]
  | cons v vs ih => simp [canonicalItems, ih]

theorem canonicalFields_eq (done fields : List (String × Value)) :
    canonicalFields done fields = fields.foldl (fun done field => insertField field.1 field.2.canonical done) done := by
  induction fields generalizing done with
  | nil => simp [canonicalFields]
  | cons field fields ih =>
    obtain ⟨name, v⟩ := field
    simp [canonicalFields, canonicalField, ih]

/-- Putting fields in their places keeps what holds of all of them. -/
theorem canonicalFields_induction {P : List (String × Value) → Prop} {fields done : List (String × Value)} (hdone : P done)
    (h : ∀ done, P done → ∀ field ∈ fields, P (insertField field.1 field.2.canonical done)) :
    P (canonicalFields done fields) := by
  rw [canonicalFields_eq]
  induction fields generalizing done with
  | nil => exact hdone
  | cons field fields ih =>
    simp only [List.forall_mem_cons] at h
    exact ih (h done hdone).1 fun done hdone => (h done hdone).2

theorem inOrder_canonical (v : Value) : v.canonical.InOrder := by
  induction v using itemInduction with
  | null => simpa [canonical] using .null
  | bool b => simpa [canonical] using .bool b
  | number n => simpa [canonical] using .number n
  | string s => simpa [canonical] using .string s
  | array items ih => simpa using .array (by simpa using ih)
  | object fields ih =>
    have hall : Ascending (canonicalFields [] fields) ∧ ∀ field ∈ canonicalFields [] fields, field.2.InOrder := by
      refine canonicalFields_induction (P := fun done => Ascending done ∧ ∀ field ∈ done, field.2.InOrder)
        ⟨.nil, by simp⟩ ?_
      rintro done ⟨hascending, hdone⟩ field hfield
      refine ⟨hascending.insertField _ _, fun other hother => ?_⟩
      rcases mem_insertField hother with rfl | hother
      · exact ih field hfield
      · exact hdone other hother
    rw [canonical]
    exact .object hall.1 hall.2

theorem nesting_canonical_le {v : Value} {k : Nat} (h : v.nesting ≤ k) : v.canonical.nesting ≤ k := by
  induction v using itemInduction generalizing k with
  | null | bool b | number n | string s => simp [canonical]
  | array items ih =>
    cases k with
    | zero => simp at h
    | succ k =>
      simp only [canonical_array, nesting_array_le, List.forall_mem_map] at h ⊢
      exact fun v hv => ih v hv (h v hv)
  | object fields ih =>
    cases k with
    | zero => simp at h
    | succ k =>
      simp only [canonical, nesting_object_le] at h ⊢
      refine canonicalFields_induction (P := fun done => ∀ field ∈ done, field.2.nesting ≤ k) (by simp) ?_
      intro done hdone field hfield other hother
      rcases mem_insertField hother with rfl | hother
      · exact ih field hfield (h field hfield)
      · exact hdone other hother

theorem canonicalFields_of_ascending {done fields : List (String × Value)} (h : Ascending (done ++ fields))
    (hfields : ∀ field ∈ fields, field.2.canonical = field.2) : canonicalFields done fields = done ++ fields := by
  rw [canonicalFields_eq]
  induction fields generalizing done with
  | nil => simp
  | cons field fields ih =>
    simp only [List.forall_mem_cons] at hfields
    have hlt : ∀ other ∈ done, other.1 < field.1 := by
      simp only [Ascending, List.map_append, List.pairwise_append] at h
      exact fun other hother => h.2.2 _ (List.mem_map_of_mem hother) _ (by simp)
    rw [List.foldl_cons, hfields.1, insertField_of_forall_lt hlt, ih (by simpa using h) hfields.2]
    simp

/-- What is in order is its own canonical form. -/
theorem InOrder.canonical_eq {v : Value} (h : v.InOrder) : v.canonical = v := by
  induction h with
  | null | bool b | number n | string s => simp [canonical]
  | array _ ih => rw [canonical_array, List.map_congr_left ih, List.map_id']
  | object hfields _ ih => rw [canonical, canonicalFields_of_ascending (by simpa using hfields) ih, List.nil_append]

end TypeBundle.Json.Value
