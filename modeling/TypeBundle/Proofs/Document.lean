import TypeBundle.Document
/-!
# What readers of documents find

What a reader finds in a list comes from an item of the list, and what it finds in an object from a field of that
name.
-/

namespace TypeBundle

theorem bind_of_some {α β : Type} {x : Option α} {a : α} {f : α → Option β} {b? : Option β} (hx : x = some a)
    (hf : f a = b?) : (x >>= f) = b? := by
  rw [hx]
  exact hf

/-! ## Lists -/

section Lists

variable {α β : Type} {read : α → Option β} {as : List α} {bs : List β}

/-- What is kept of each item is kept of the list. -/
theorem map_of_mapM {γ : Type} {f : α → γ} {g : β → γ} (h : as.mapM read = some bs)
    (hkeep : ∀ a b, read a = some b → g b = f a) : bs.map g = as.map f := by
  induction as generalizing bs with
  | nil =>
    obtain rfl : bs = [] := by simpa using h.symm
    rfl
  | cons a as ih =>
    simp only [List.mapM_cons, Option.bind_eq_bind, Option.bind_eq_some_iff, Option.pure_def, Option.some.injEq] at h
    obtain ⟨b, hb, rest, hrest, rfl⟩ := h
    rw [List.map_cons, List.map_cons, hkeep a b hb, ih hrest]

theorem map_some_of_mapM (h : as.mapM read = some bs) : bs.map some = as.map read :=
  map_of_mapM h fun _ _ hread => hread.symm

/-- What is read of a list is read of its items. -/
theorem exists_of_mapM (h : as.mapM read = some bs) : ∀ b ∈ bs, ∃ a ∈ as, read a = some b := by
  intro b hb
  have hmem : some b ∈ as.map read := map_some_of_mapM h ▸ List.mem_map_of_mem hb
  exact List.mem_map.1 hmem

/-- A list is read only if all its items are. -/
theorem forall_of_mapM (h : as.mapM read = some bs) : ∀ a ∈ as, ∃ b, read a = some b := by
  intro a ha
  have hmem : read a ∈ bs.map some := map_some_of_mapM h ▸ List.mem_map_of_mem ha
  obtain ⟨b, -, hb⟩ := List.mem_map.1 hmem
  exact ⟨b, hb.symm⟩

theorem getElem?_of_mapM (h : as.mapM read = some bs) (n : Nat) : (bs[n]?).map some = (as[n]?).map read := by
  rw [← List.getElem?_map, map_some_of_mapM h, List.getElem?_map]

theorem exists_mapM (h : ∀ a ∈ as, ∃ b, read a = some b) : ∃ bs, as.mapM read = some bs := by
  induction as with
  | nil => exact ⟨[], rfl⟩
  | cons a as ih =>
    simp only [List.mem_cons, forall_eq_or_imp] at h
    obtain ⟨⟨b, hb⟩, has⟩ := h
    obtain ⟨bs, hbs⟩ := ih has
    exact ⟨b :: bs, by simp [hb, hbs]⟩

/-- Items that are read as what they are made of make the list. -/
theorem mapM_map {γ : Type} {make : γ → α} {f : γ → β} {cs : List γ} (h : ∀ c ∈ cs, read (make c) = some (f c)) :
    (cs.map make).mapM read = some (cs.map f) := by
  induction cs with
  | nil => rfl
  | cons c cs ih =>
    simp only [List.mem_cons, forall_eq_or_imp] at h
    simp [h.1, ih h.2]

end Lists

namespace Document

variable {ν α : Type} {fields : List (String × ν)} {name : String} {read : ν → Option α}

/-! ## Fields -/

theorem mem_of_lookup {v : ν} (h : lookup? fields name = some (some v)) : (name, v) ∈ fields := by
  unfold lookup? at h
  split at h
  · cases h
  · rename_i n w hfilter
    cases h
    have hmem : (n, v) ∈ fields.filter (·.1 == name) := by simp [hfilter]
    simp only [List.mem_filter, beq_iff_eq] at hmem
    obtain ⟨hmem, rfl⟩ := hmem
    exact hmem
  · cases h

theorem exists_of_required {a : α} (h : required fields name read = some a) :
    ∃ v, (name, v) ∈ fields ∧ read v = some a := by
  unfold required at h
  split at h
  · rename_i v hv
    exact ⟨v, mem_of_lookup hv, h⟩
  · cases h

variable [Document ν]

/-! ## Structures -/

section Structures

variable {names : List String} {v : ν}

/-- Fields with names are the fields of any structure. -/
theorem fieldsOf?_of_fields? (h : fields? v = some fields) : fieldsOf? names v = some fields := by
  rw [fieldsOf?, h]

/-- The fields of a structure have names, or are values that take the names in turn. -/
theorem fields_of_fieldsOf? (h : fieldsOf? names v = some fields) :
    fields? v = some fields ∨ ∃ vs, unnamed? v = some vs ∧ fields = names.zip vs := by
  unfold fieldsOf? at h
  split at h
  · exact .inl (h ▸ ‹_›)
  · obtain ⟨vs, hvs, h⟩ := Option.bind_eq_some_iff.1 h
    split at h
    · exact .inr ⟨vs, hvs, (Option.some.inj h).symm⟩
    · cases h

end Structures

theorem exists_of_optional {a? : Option α} (h : optional fields name read = some a?) :
    ∀ a ∈ a?, ∃ v, (name, v) ∈ fields ∧ isNull v = false ∧ read v = some a := by
  unfold optional at h
  split at h
  · rename_i v hv
    split at h
    · cases h
      simp
    · rename_i hnull
      obtain ⟨a, ha, rfl⟩ := Option.map_eq_some_iff.1 h
      rintro b hb
      cases hb
      exact ⟨v, mem_of_lookup hv, by simpa using hnull, ha⟩
  · cases h
    simp
  · cases h

theorem exists_of_list {v : ν} {as : List α} (h : list? read v = some as) :
    ∃ vs, items? v = some vs ∧ ∀ a ∈ as, ∃ w ∈ vs, read w = some a := by
  obtain ⟨vs, hvs, has⟩ := Option.bind_eq_some_iff.1 h
  exact ⟨vs, hvs, exists_of_mapM has⟩

end Document

/-! ## Fields that are left out -/

namespace Document

section Shown

variable {ω ν α β : Type} {shown : ω → ν} {fields : List (String × Option ω)} {name : String}

/-- The fields that have a value, as they are shown. -/
def shownFields (shown : ω → ν) (fields : List (String × Option ω)) : List (String × ν) :=
  fields.filterMap fun (name, v?) => v?.map fun v => (name, shown v)

theorem lookup?_shownFields {v? : Option ω} (h : fields.filter (·.1 == name) = [(name, v?)]) :
    lookup? (shownFields shown fields) name = some (v?.map shown) := by
  have hfilter : (shownFields shown fields).filter (·.1 == name) = shownFields shown (fields.filter (·.1 == name)) := by
    clear h
    induction fields with
    | nil => rfl
    | cons field fields ih =>
      obtain ⟨n, v?⟩ := field
      rw [shownFields, shownFields] at ih
      cases v? <;> by_cases hn : n == name <;> simp [shownFields, hn, ih]
  rw [lookup?, hfilter, h]
  cases v? <;> rfl

theorem required_shown {read : ν → Option α} {v : ω} {a : α} (hv : fields.filter (·.1 == name) = [(name, some v)])
    (ha : read (shown v) = some a) : required (shownFields shown fields) name read = some a := by
  simp [required, lookup?_shownFields hv, ha]

/-- A field that is left out for its default is read as the default. -/
theorem defaulted_shown {read : ν → Option α} {v? : Option ω} {a default : α}
    (hv : fields.filter (·.1 == name) = [(name, v?)]) (ha : ∀ v ∈ v?, read (shown v) = some a)
    (hdefault : v? = none → default = a) : defaulted (shownFields shown fields) name default read = some a := by
  cases v? with
  | none => simp [defaulted, lookup?_shownFields hv, hdefault rfl]
  | some v => simp [defaulted, lookup?_shownFields hv, ha v rfl]

theorem defaulted_unless {read : ν → Option α} {omitted : Bool} {v : ω} {a default : α}
    (hv : fields.filter (·.1 == name) = [(name, if omitted then none else some v)]) (ha : read (shown v) = some a)
    (hdefault : omitted = true → default = a) : defaulted (shownFields shown fields) name default read = some a := by
  refine defaulted_shown hv (fun w hw => ?_) fun hnone => hdefault ?_
  · cases omitted with
    | true => cases hw
    | false =>
      obtain rfl : v = w := Option.some.inj hw
      exact ha
  · cases omitted with
    | true => rfl
    | false => cases hnone

theorem optional_shown [Document ν] {read : ν → Option β} {make : α → ω} {f : α → β} {a? : Option α}
    (hv : fields.filter (·.1 == name) = [(name, a?.map make)]) (hnull : ∀ a, isNull (shown (make a)) = false)
    (ha : ∀ a ∈ a?, read (shown (make a)) = some (f a)) :
    optional (shownFields shown fields) name read = some (a?.map f) := by
  cases a? with
  | none => simp [optional, lookup?_shownFields hv]
  | some a => simp [optional, lookup?_shownFields hv, hnull, ha a rfl]

end Shown

end Document

end TypeBundle
