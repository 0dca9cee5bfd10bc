import Mathlib.Data.List.Basic
import TypeBundle.Pass.RecordTable
/-!
# Slots of records

What the operations on a table do to its slots, and what a complete table is frozen to: the finished
records, each once, in ascending order of their ids (`mem_of_freeze`, `ids_of_freeze`).
-/

namespace TypeBundle.RecordTable

variable {t : RecordTable} {id other : BundleId} {record : Record} {records : List Record}

/-- The slot with the id: it may be missing, and empty if it is there. -/
def slot? (t : RecordTable) (id : BundleId) : Option (Option Record) := t.slots[id.val]?

theorem get?_eq_some : t.get? id = some record ↔ t.slot? id = some (some record) := by
  simp [get?, slot?, Option.join_eq_some_iff]

theorem get?_of_empty (h : t.slot? id = some none) : t.get? id = none := by
  cases hg : t.get? id with
  | none => rfl
  | some record => rw [get?_eq_some, h] at hg; cases hg

theorem val_compare (a b : BundleId) : compare a.val b.val = .eq ↔ a = b := by
  rw [Std.LawfulEqCmp.compare_eq_iff_eq]
  exact ⟨fun h => by cases a; cases b; simp_all, fun h => h ▸ rfl⟩

theorem slot?_reserve (t : RecordTable) (id other : BundleId) :
    (t.reserve id).slot? other = if other = id then some ((t.slot? id).getD none) else t.slot? other := by
  simp only [slot?, reserve, Std.TreeMap.getElem?_insertIfNew, val_compare]
  by_cases h : other = id
  · subst h
    by_cases hm : other.val ∈ t.slots
    · rw [if_neg fun h => h.2 hm, if_pos rfl]
      obtain ⟨slot, hs⟩ := Option.isSome_iff_exists.1 ((Std.TreeMap.mem_iff_isSome_getElem?).1 hm)
      simp [hs]
    · simp [hm]
  · rw [if_neg fun hc => h hc.1.symm, if_neg h]

theorem slot?_fill (t : RecordTable) (record : Record) (other : BundleId) :
    (t.fill record).slot? other =
      if other = record.id ∧ t.get? other = none then some (some record) else t.slot? other := by
  unfold fill isComplete
  by_cases h : other = record.id
  · subst h
    cases hg : t.get? record.id with
    | none => simp [slot?]
    | some r => simp
  · split
    · simp [h]
    · simp only [slot?, Std.TreeMap.getElem?_insert, val_compare, h, Ne.symm h, if_false, false_and]

theorem slot?_fill_of_empty (h : t.slot? record.id = some none) (other : BundleId) :
    (t.fill record).slot? other = if other = record.id then some (some record) else t.slot? other := by
  rw [slot?_fill]
  by_cases e : other = record.id
  · subst e
    rw [if_pos rfl, if_pos ⟨rfl, get?_of_empty h⟩]
  · rw [if_neg e, if_neg fun hc => e hc.1]

/-- A finished record stays as it is. -/
theorem get?_fill_of_some (h : t.get? id = some record) (new : Record) : (t.fill new).get? id = some record := by
  rw [get?_eq_some, slot?_fill, if_neg fun hc => by simp [h] at hc]
  exact get?_eq_some.1 h

theorem get?_reserve (t : RecordTable) (id other : BundleId) : (t.reserve id).get? other = t.get? other := by
  refine Option.ext fun record => ?_
  rw [get?_eq_some, get?_eq_some, slot?_reserve]
  split
  · rename_i h
    subst h
    cases t.slot? other <;> simp
  · rfl

/-! ## How many slots there are -/

theorem contains_iff : t.contains id = true ↔ t.slot? id ≠ none := by
  simp [contains, slot?]

theorem size_reserve_of_none (h : t.slot? id = none) : (t.reserve id).size = t.size + 1 := by
  have hnew : id.val ∉ t.slots := by simpa [slot?] using h
  simp only [reserve, size, Std.TreeMap.size_insertIfNew, if_neg hnew]

theorem size_fill_of_some (h : t.slot? record.id ≠ none) : (t.fill record).size = t.size := by
  have hcontains : t.slots.contains record.id.val = true := contains_iff.2 h
  unfold fill
  split
  · rfl
  · simp only [size, Std.TreeMap.size_insert, hcontains, if_true]

/-! ## Freezing -/

theorem freeze_eq_ok (t : RecordTable) (records : List Record) :
    t.freeze = .ok records ↔ t.slots.toList.map Prod.snd = records.map some := by
  unfold freeze
  induction t.slots.toList generalizing records with
  | nil => cases records <;> simp [pure, Except.pure]
  | cons e es ih =>
    obtain ⟨id, slot⟩ := e
    rw [List.mapM_cons]
    cases slot with
    | none => cases records <;> simp [bind, Except.bind]
    | some record =>
      cases records with
      | nil =>
        simp only [bind, Except.bind, List.map_cons, List.map_nil, reduceCtorEq, iff_false]
        split <;> simp [pure, Except.pure]
      | cons r rs =>
        simp only [bind, Except.bind, List.map_cons, List.cons.injEq, Option.some.injEq, ← ih rs]
        split
        · rename_i h
          simp [h]
        · rename_i h
          simp [h, pure, Except.pure]

/-- Each slot holds the record with its own id. -/
def Keyed (t : RecordTable) : Prop := ∀ id record, t.slot? id = some (some record) → record.id = id

theorem mem_slots_iff (t : RecordTable) (id : BundleId) (slot : Option Record) :
    (id.val, slot) ∈ t.slots.toList ↔ t.slot? id = some slot := Std.TreeMap.mem_toList_iff_getElem?_eq_some

/-- A table without empty slots can be frozen. -/
theorem exists_freeze (h : ∀ id, t.slot? id ≠ some none) : ∃ records, t.freeze = .ok records := by
  have hsome : ∀ slot ∈ t.slots.toList.map Prod.snd, slot.isSome = true := by
    intro slot hslot
    obtain ⟨⟨id, slot⟩, he, rfl⟩ := List.mem_map.1 hslot
    exact Option.isSome_iff_ne_none.2 fun hnone => h ⟨id⟩ (hnone ▸ (t.mem_slots_iff ⟨id⟩ slot).1 he)
  refine ⟨t.slots.toList.filterMap Prod.snd, (t.freeze_eq_ok _).2 ?_⟩
  rw [List.map_filterMap_some_eq_filter_map_isSome, List.filter_eq_self.2 hsome]

section Freeze

variable (h : t.freeze = .ok records)
include h

/-- A table is frozen only if no slot is empty. -/
theorem slot?_of_freeze (id : BundleId) : t.slot? id ≠ some none := by
  intro hs
  have : none ∈ t.slots.toList.map Prod.snd := List.mem_map.2 ⟨_, (t.mem_slots_iff id none).2 hs, rfl⟩
  rw [(t.freeze_eq_ok records).1 h] at this
  simp at this

theorem mem_of_freeze (hk : t.Keyed) (record : Record) : record ∈ records ↔ t.get? record.id = some record := by
  rw [get?_eq_some, ← mem_slots_iff]
  have hmem : record ∈ records ↔ some record ∈ t.slots.toList.map Prod.snd := by
    rw [(t.freeze_eq_ok records).1 h]
    simp
  rw [hmem, List.mem_map]
  constructor
  · rintro ⟨⟨id, slot⟩, he, rfl⟩
    have : record.id = ⟨id⟩ := hk ⟨id⟩ record ((t.mem_slots_iff ⟨id⟩ _).1 he)
    rwa [this]
  · exact fun he => ⟨_, he, rfl⟩

theorem ids_of_freeze (hk : t.Keyed) : (records.map (·.id)).Pairwise (· < ·) := by
  have hids : t.slots.toList.map Prod.fst = records.map (·.id.val) := by
    have hkey : ∀ e ∈ t.slots.toList, e.2.map (·.id.val) = some e.1 := by
      rintro ⟨id, slot⟩ he
      have hs := (t.mem_slots_iff ⟨id⟩ slot).1 he
      cases slot with
      | none => exact absurd hs (slot?_of_freeze h ⟨id⟩)
      | some record => simp [hk _ _ hs]
    have := congrArg (List.map (Option.map (·.id.val))) ((t.freeze_eq_ok records).1 h)
    rw [List.map_map, List.map_map] at this
    have hsome : Function.Injective (some : UInt32 → Option UInt32) := fun _ _ => Option.some.inj
    refine List.map_injective_iff.2 hsome ?_
    rw [List.map_map, List.map_map]
    exact (List.map_congr_left fun e he => (hkey e he).symm).trans this
  have hlt : (t.slots.toList.map Prod.fst).Pairwise (· < ·) :=
    List.pairwise_map.2 (Std.TreeMap.ordered_keys_toList.imp fun hc => Std.compare_eq_lt.1 hc)
  rw [hids, List.pairwise_map] at hlt
  exact List.pairwise_map.2 hlt

end Freeze

/-- What a freeze stops at is empty, and nothing before it is. -/
theorem split_of_freeze (h : t.freeze = .error id) :
    ∃ before after, t.slots.toList = before ++ (id.val, none) :: after ∧ ∀ e ∈ before, e.2 ≠ none := by
  unfold freeze at h
  generalize t.slots.toList = slots at h
  induction slots with
  | nil => cases h
  | cons e es ih =>
    obtain ⟨key, slot⟩ := e
    rw [List.mapM_cons] at h
    cases slot with
    | none =>
      cases h
      exact ⟨[], es, rfl, by simp⟩
    | some record =>
      simp only [bind, Except.bind] at h
      split at h
      · rename_i other hother
        obtain ⟨before, after, rfl, hbefore⟩ := ih (hother.trans h)
        exact ⟨(key, some record) :: before, after, rfl, by simpa using hbefore⟩
      · cases h

/-- A table with an empty slot is not frozen: the first such slot is named. -/
theorem freeze_eq_error :
    t.freeze = .error id ↔ t.slot? id = some none ∧ ∀ other, t.slot? other = some none → id ≤ other := by
  have hfirst : ∀ {id}, t.freeze = .error id →
      t.slot? id = some none ∧ ∀ other, t.slot? other = some none → id ≤ other := by
    intro id h
    obtain ⟨before, after, hlist, hbefore⟩ := split_of_freeze h
    refine ⟨(t.mem_slots_iff id none).1 (by simp [hlist]), fun other hother => ?_⟩
    have hmem := (t.mem_slots_iff other none).2 hother
    have hlt : (t.slots.toList).Pairwise fun a b => compare a.1 b.1 = .lt := Std.TreeMap.ordered_keys_toList
    rw [hlist] at hmem hlt
    rcases List.mem_append.1 hmem with hmem | hmem
    · exact absurd rfl (hbefore _ hmem)
    · rcases List.mem_cons.1 hmem with heq | hmem
      · exact UInt32.le_of_eq (Prod.mk.inj heq).1.symm
      · have hlater := List.rel_of_pairwise_cons (List.pairwise_append.1 hlt).2.1 hmem
        exact UInt32.le_of_lt (Std.compare_eq_lt.1 hlater)
  refine ⟨hfirst, fun ⟨hempty, hle⟩ => ?_⟩
  cases hf : t.freeze with
  | ok records => exact absurd hempty (slot?_of_freeze hf id)
  | error other =>
    obtain ⟨hother, hle'⟩ := hfirst hf
    obtain rfl : other = id := by
      cases other
      cases id
      exact congrArg BundleId.mk (UInt32.le_antisymm (hle' _ hempty) (hle _ hother))
    rfl

/-! ## Other records in the slots -/

/-- The table with other records in its slots. -/
def map (f : Record → Record) (t : RecordTable) : RecordTable := ⟨t.slots.map fun _ slot => slot.map f⟩

theorem slot?_map (f : Record → Record) (t : RecordTable) (id : BundleId) :
    (t.map f).slot? id = (t.slot? id).map (·.map f) := Std.TreeMap.getElem?_map

theorem freeze_map (f : Record → Record) (t : RecordTable) : (t.map f).freeze = t.freeze.map (·.map f) := by
  unfold freeze map
  rw [Std.TreeMap.toList_map]
  induction t.slots.toList with
  | nil => rfl
  | cons e es ih =>
    obtain ⟨id, slot⟩ := e
    rw [List.map_cons, List.mapM_cons, List.mapM_cons, ih]
    cases slot with
    | none => rfl
    | some record =>
      simp only [Option.map_some, bind, Except.bind]
      generalize es.mapM (m := Except BundleId) _ = rest
      cases rest <;> rfl

/-- What a table is frozen to depends on its slots alone. -/
theorem freeze_congr {t t' : RecordTable} (h : ∀ id, t'.slot? id = t.slot? id) : t'.freeze = t.freeze := by
  have hequiv : t'.slots.Equiv t.slots := .of_forall_constGet?_eq fun id => h ⟨id⟩
  rw [freeze, freeze, hequiv.toList_eq]

end TypeBundle.RecordTable
