import TypeBundle.Outline
import TypeBundle.Proofs.Document
/-!
# Outlines in a format

A format shows outlines if what is asked of a shown outline is answered from the outline (`Shows`); only literals may
be read as others, or as no value.
-/

namespace TypeBundle

open Document

variable {ν : Type} [Document ν]

/-- Outlines are read as they are shown, but for literals, which are read as `reread` says. -/
structure Shows (shown : Outline → ν) (reread : Literal → Option Literal) : Prop where
  object : ∀ fields, fields? (shown (.object fields)) = some (fields.map fun field => (field.1, shown field.2))
  list : ∀ items, items? (shown (.list items)) = some (items.map shown)
  word : ∀ n, nat? (shown (.word n)) = some n.toNat
  string : ∀ s, string? (shown (.string s)) = some s
  literal : ∀ l, (if isNull (shown (.literal l)) then some none else (literal? (shown (.literal l))).map some) =
    some (reread l)
  listPresent : ∀ items, isNull (shown (.list items)) = false
  wordPresent : ∀ n, isNull (shown (.word n)) = false
  stringPresent : ∀ s, isNull (shown (.string s)) = false

namespace Shows

variable {shown : Outline → ν} {reread : Literal → Option Literal} (h : Shows shown reread)
include h

theorem objectOf (fields : List (String × Option Outline)) (names : List String) :
    fieldsOf? names (shown (.objectOf fields)) = some (shownFields shown fields) := by
  refine fieldsOf?_of_fields? ?_
  rw [Outline.objectOf, h.object, List.map_filterMap]
  simp [shownFields, Function.comp_def]

theorem word64 (n : UInt64) : word64? (shown (.word n)) = some n := by
  have hlt : n.toNat < 0x10000000000000000 := n.toNat_lt
  simp [word64?, h.word, hlt]

theorem items {α β : Type} {read : ν → Option β} {make : α → Outline} {f : α → β} {as : List α}
    (hread : ∀ a ∈ as, read (shown (make a)) = some (f a)) :
    list? read (shown (.list (as.map make))) = some (as.map f) := by
  rw [list?, h.list, Option.bind_some, List.map_map]
  exact mapM_map hread

theorem optionalLiteral {fields : List (String × Option Outline)} {name : String} {l? : Option Literal}
    (hfield : fields.filter (·.1 == name) = [(name, l?.map .literal)]) :
    optional (shownFields shown fields) name literal? = some (l?.bind reread) := by
  rw [Document.optional, lookup?_shownFields hfield]
  cases l? with
  | none => rfl
  | some l => exact h.literal l

/-! ## Ids -/

section Ids

variable {ι : Type} {word : ι → UInt64} {make : UInt64 → ι} (hmake : ∀ i, make (word i) = i)
variable {fields : List (String × Option Outline)} {name : String}
include hmake

theorem id (i : ι) : (word64? (shown (.word (word i)))).map make = some i := by
  rw [h.word64, Option.map_some, hmake]

theorem ids (is : List ι) :
    list? (fun v => (word64? v).map make) (shown (.list (is.map fun i => .word (word i)))) = some is := by
  simpa using h.items (f := fun i => i) fun i _ => h.id hmake i

theorem optionalId {i? : Option ι} (hfield : fields.filter (·.1 == name) = [(name, i?.map fun i => .word (word i))]) :
    optional (shownFields shown fields) name (fun v => (word64? v).map make) = some i? := by
  simpa using optional_shown (f := fun i => i) hfield (fun _ => h.wordPresent _) fun i _ => h.id hmake i

/-- A list of ids is left out if it is empty. -/
theorem idList {is : List ι} (hfield : fields.filter (·.1 == name) = [(name, Outline.nonEmpty? (is.map word))]) :
    defaulted (shownFields shown fields) name [] (list? fun v => (word64? v).map make) = some is := by
  refine defaulted_shown hfield (fun v hv => ?_) fun hnone => ?_
  · cases is with
    | nil => cases hv
    | cons i is =>
      obtain rfl : _ = v := Option.some.inj hv
      simpa [Function.comp_def] using h.ids hmake (i :: is)
  · cases is with
    | nil => rfl
    | cons i is => cases hnone

end Ids

end Shows

end TypeBundle
