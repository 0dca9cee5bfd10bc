import Mathlib.Data.List.Nodup
import TypeBundle.Proofs.Walk.Consistent
import TypeBundle.Proofs.Walk.Journal
/-!
# Orderly journals

In an orderly journal every event is one that may happen after those before it: ids go to identities without
one, and of the records under construction only the last begun is expanded, shared or finished. The records
under construction are the tasks of a journal.

What an orderly journal says is proved here event by event: an identity is expanded at most once, a slot is
filled at most once and by its own record, and is empty just as long as its record is a task.
-/

namespace TypeBundle

/-- How far the expansion of an identity is. -/
inductive Stage where
  | begun
  | expanded
  /-- The alias has given its id to the literal, whose shape is next. -/
  | sharing (t : TypeId)
  | shared

/-- A record under construction. -/
structure Task where
  key : Identity
  id : BundleId
  stage : Stage

namespace Task

/-- The identity that is expanded next. -/
def due? (x : Task) : Option Identity :=
  match x.stage with
  | .begun => some x.key
  | .sharing t => some (.type t)
  | .expanded | .shared => none

/-- The task after that expansion has begun. -/
def advance (x : Task) : Task :=
  match x.stage with
  | .begun => { x with stage := .expanded }
  | .sharing _ => { x with stage := .shared }
  | .expanded | .shared => x

/-- The id belongs to the identity alone. -/
def IsAlone (x : Task) : Prop := x.stage = .begun ∨ x.stage = .expanded

variable {x : Task}

@[simp]
theorem advance_key : x.advance.key = x.key := by
  unfold advance
  split <;> rfl

@[simp]
theorem advance_id : x.advance.id = x.id := by
  unfold advance
  split <;> rfl

@[simp]
theorem due?_advance : x.advance.due? = none := by
  obtain ⟨key, id, stage⟩ := x
  cases stage <;> rfl

theorem isAlone_of_advance (h : x.advance.IsAlone) : x.IsAlone := by
  obtain ⟨key, id, stage⟩ := x
  cases stage with
  | begun => exact .inl rfl
  | expanded => exact h
  | sharing t => rcases h with h | h <;> cases h
  | shared => exact h

end Task

/-- Every event of the journal may happen after those before it, and leaves these tasks. -/
inductive Orderly (host : Host) : List Event → List Task → Prop
  | start : Orderly host [] []
  | issued {past tasks t} : Orderly host past tasks → (replay past).registry.get? (.type t) = none →
      Orderly host (.issued t (replay past).registry.next :: past) tasks
  | began {past tasks key} : Orderly host past tasks → (replay past).registry.get? key = none →
      Orderly host (.began key (replay past).registry.next :: past) (⟨key, (replay past).registry.next, .begun⟩ :: tasks)
  | expanded {past tasks x key} : Orderly host past (x :: tasks) → x.due? = some key →
      Orderly host (.expanded key :: past) (x.advance :: tasks)
  | bound {past tasks s t id} : Orderly host past (⟨.alias_ s, id, .expanded⟩ :: tasks) → host.IsLiteralOf s t →
      (replay past).registry.get? (.type t) = none →
      Orderly host (.bound t id :: past) (⟨.alias_ s, id, .sharing t⟩ :: tasks)
  | ended {past tasks x record} : Orderly host past (x :: tasks) → record.id = x.id →
      Orderly host (.ended record :: past) tasks

/-! ## What stays -/

theorem Progress.Extends.after (p : Progress) (e : Event) : p.Extends (p.after e) := by
  cases e with
  | issued t id => exact .reserve p (.type t)
  | began key id => exact .open_ p key
  | expanded key => exact .refl p
  | bound t id => exact .share p (.type t) id
  | ended record => exact .close p record

/-- Nothing that has happened is undone. -/
theorem extends_of_suffix {past es : List Event} (h : past <:+ es) : (replay past).Extends (replay es) := by
  induction es with
  | nil =>
    obtain rfl := List.suffix_nil.1 h
    exact .refl _
  | cons e es ih =>
    rcases List.suffix_cons_iff.1 h with rfl | h
    · exact .refl _
    · exact (ih h).trans (.after _ e)

theorem issued_le_of_cons {e : Event} {past : List Event} (h : (replay (e :: past)).registry.issued ≤ 2 ^ 32) :
    (replay past).registry.issued ≤ 2 ^ 32 := Nat.le_trans (Progress.Extends.after _ e).issued h

/-- Before an id was handed out one was left. -/
theorem issued_lt_of_reserve {r : Registry} {key : Identity} (hk : r.get? key = none)
    (h : (r.reserve key).2.issued ≤ 2 ^ 32) : r.issued < 2 ^ 32 := by
  rw [Registry.issued_reserve_of_none hk] at h
  exact h

namespace Orderly

variable {host : Host} {e : Event} {es past : List Event} {tasks : List Task}

theorem of_cons (h : Orderly host (e :: es) tasks) : ∃ ts, Orderly host es ts := by
  cases h with
  | issued h | began h | expanded h | bound h | ended h => exact ⟨_, h⟩

/-- What happened before was orderly as well. -/
theorem of_suffix (h : Orderly host es tasks) (hpast : past <:+ es) : ∃ ts, Orderly host past ts := by
  induction es generalizing tasks with
  | nil =>
    obtain rfl := List.suffix_nil.1 hpast
    exact ⟨tasks, h⟩
  | cons e es ih =>
    rcases List.suffix_cons_iff.1 hpast with rfl | hpast
    · exact ⟨tasks, h⟩
    · obtain ⟨ts, hts⟩ := h.of_cons
      exact ih hts hpast

/-! ## Tasks -/

/-- An identity whose record is begun has the id from then on. -/
theorem get?_of_began (h : Orderly host es tasks) {key : Identity} {id : BundleId} (hb : .began key id ∈ es) :
    (replay es).registry.get? key = some id := by
  induction h with
  | start => cases hb
  | began h hk ih =>
    rcases List.mem_cons.1 hb with heq | hb
    · cases heq
      rw [replay, Progress.after, Progress.open_, Registry.get?_reserve_of_none hk, if_pos rfl]
    · exact (Progress.Extends.after _ _).ids (ih hb)
  | issued _ _ ih | expanded _ _ ih | bound _ _ _ ih | ended _ _ ih =>
    exact (Progress.Extends.after _ _).ids (ih (by simpa using hb))

theorem began_of_mem (h : Orderly host es tasks) {x : Task} (hx : x ∈ tasks) : .began x.key x.id ∈ es := by
  -- a task changes its stage only, so that its key and id are those that it began with
  induction h generalizing x with
  | start => cases hx
  | issued _ _ ih => exact List.mem_cons_of_mem _ (ih hx)
  | began _ _ ih =>
    rcases List.mem_cons.1 hx with rfl | hx
    · exact List.mem_cons_self
    · exact List.mem_cons_of_mem _ (ih hx)
  | expanded _ _ ih =>
    rcases List.mem_cons.1 hx with rfl | hx
    · simpa using ih List.mem_cons_self
    · exact List.mem_cons_of_mem _ (ih (List.mem_cons_of_mem _ hx))
  | bound _ _ _ ih =>
    rcases List.mem_cons.1 hx with rfl | hx
    · have hself := ih List.mem_cons_self
      exact List.mem_cons_of_mem _ hself
    · exact List.mem_cons_of_mem _ (ih (List.mem_cons_of_mem _ hx))
  | ended _ _ ih => exact List.mem_cons_of_mem _ (ih (List.mem_cons_of_mem _ hx))

theorem get?_of_mem (h : Orderly host es tasks) {x : Task} (hx : x ∈ tasks) :
    (replay es).registry.get? x.key = some x.id := h.get?_of_began (h.began_of_mem hx)

/-- A task that is past its beginning has been expanded. -/
theorem expanded_of_mem (h : Orderly host es tasks) {x : Task} (hx : x ∈ tasks) (hs : x.stage ≠ .begun) :
    .expanded x.key ∈ es := by
  induction h generalizing x with
  | start => cases hx
  | issued _ _ ih => exact List.mem_cons_of_mem _ (ih hx hs)
  | began _ _ ih =>
    rcases List.mem_cons.1 hx with rfl | hx
    · exact absurd rfl hs
    · exact List.mem_cons_of_mem _ (ih hx hs)
  | @expanded _ _ y key _ hd ih =>
    rcases List.mem_cons.1 hx with rfl | hx
    · by_cases hy : y.stage = .begun
      · obtain rfl : y.key = key := by simpa [Task.due?, hy] using hd
        simp
      · simpa using .inr (ih List.mem_cons_self hy)
    · exact List.mem_cons_of_mem _ (ih (List.mem_cons_of_mem _ hx) hs)
  | bound _ _ _ ih =>
    rcases List.mem_cons.1 hx with rfl | hx
    · have hself := ih List.mem_cons_self Stage.noConfusion
      exact List.mem_cons_of_mem _ hself
    · exact List.mem_cons_of_mem _ (ih (List.mem_cons_of_mem _ hx) hs)
  | ended _ _ ih => exact List.mem_cons_of_mem _ (ih (List.mem_cons_of_mem _ hx) hs)

/-! ## Expansions -/

/-- The identities that have been expanded, and those that are expanded next. -/
def expansions (es : List Event) (tasks : List Task) : List Identity :=
  es.filterMap Event.expanded? ++ tasks.filterMap Task.due?

/-- The identities are different, and all have an id. -/
def Distinct (es : List Event) (keys : List Identity) : Prop :=
  keys.Nodup ∧ ∀ key ∈ keys, (replay es).registry.get? key ≠ none

theorem Distinct.extends {keys : List Identity} (h : Distinct past keys) (hpast : past <:+ es) : Distinct es keys := by
  refine ⟨h.1, fun key hkey => ?_⟩
  obtain ⟨id, hid⟩ := Option.ne_none_iff_exists'.1 (h.2 key hkey)
  simp [(extends_of_suffix hpast).ids hid]

/-- An identity that has got its id just now is none of those before. -/
theorem Distinct.cons {keys : List Identity} {key : Identity} (h : Distinct past keys) (hpast : past <:+ es)
    (hnone : (replay past).registry.get? key = none) (hkey : (replay es).registry.get? key ≠ none) :
    Distinct es (key :: keys) := by
  refine ⟨List.nodup_cons.2 ⟨fun hmem => h.2 key hmem hnone, h.1⟩, ?_⟩
  rw [List.forall_mem_cons]
  exact ⟨hkey, (h.extends hpast).2⟩

theorem Distinct.perm {keys keys' : List Identity} (h : Distinct es keys) (hperm : keys.Perm keys') : Distinct es keys' :=
  ⟨hperm.nodup_iff.1 h.1, fun key hkey => h.2 key (hperm.mem_iff.2 hkey)⟩

theorem distinct_expansions (h : Orderly host es tasks) : Distinct es (expansions es tasks) := by
  -- what is expanded next is counted in before it is, so that an expansion only moves its identity
  induction h with
  | start => exact ⟨.nil, by simp [expansions]⟩
  | issued _ _ ih => exact ih.extends (List.suffix_cons _ _)
  | @began past tasks key _ hk ih =>
    have hkey : (replay (.began key (replay past).registry.next :: past)).registry.get? key ≠ none := by
      rw [replay, Progress.after, Progress.open_, Registry.get?_reserve_of_none hk, if_pos rfl]
      simp
    exact (ih.cons (List.suffix_cons _ _) hk hkey).perm List.perm_middle.symm
  | @expanded past tasks x key _ hd ih =>
    have hdue : expansions past (x :: tasks) = past.filterMap Event.expanded? ++ key :: tasks.filterMap Task.due? := by
      rw [expansions, List.filterMap_cons_some hd]
    have hadvance : expansions (.expanded key :: past) (x.advance :: tasks) = key :: expansions past tasks := by
      rw [expansions, List.filterMap_cons_none Task.due?_advance]
      rfl
    rw [hdue] at ih
    rw [hadvance]
    exact (ih.extends (List.suffix_cons _ _)).perm List.perm_middle
  | @bound past tasks s t id _ _ hk ih =>
    have hkey : (replay (.bound t id :: past)).registry.get? (.type t) ≠ none := by
      rw [replay, Progress.after, Progress.share, Registry.get?_bind, if_pos rfl]
      simp
    exact (ih.cons (List.suffix_cons _ _) hk hkey).perm List.perm_middle.symm
  | ended _ _ ih =>
    refine ⟨ih.1.sublist ?_, fun key hkey => (ih.extends (List.suffix_cons _ _)).2 key ?_⟩
    · exact (List.Sublist.refl _).append ((List.sublist_cons_self _ _).filterMap _)
    · exact ((List.Sublist.refl _).append ((List.sublist_cons_self _ _).filterMap _)).subset hkey

/-- No identity is expanded twice. -/
theorem nodup_expanded (h : Orderly host es tasks) : (es.filterMap Event.expanded?).Nodup :=
  h.distinct_expansions.1.of_append_left

/-- No identity is begun twice. -/
theorem nodup_begun (h : Orderly host es tasks) : (es.filterMap Event.begun?).Nodup := by
  induction h with
  | start => exact .nil
  | @began past tasks key h hk ih =>
    refine List.nodup_cons.2 ⟨fun hmem => ?_, ih⟩
    obtain ⟨e, he, hkey⟩ := List.mem_filterMap.1 hmem
    cases e with
    | began key' id =>
      cases hkey
      rw [h.get?_of_began he] at hk
      cases hk
    | issued | expanded | bound | ended => cases hkey
  | issued _ _ ih | expanded _ _ ih | bound _ _ _ ih | ended _ _ ih => exact ih

/-- Every identity that is given an id is counted. -/
theorem size_registry (h : Orderly host es tasks) :
    (replay es).registry.size = (es.filterMap Event.registered?).length := by
  induction h with
  | start => rfl
  | @issued past _ t _ hk ih => exact (Registry.size_reserve_of_none hk).trans (congrArg (· + 1) ih)
  | @began past _ key _ hk ih => exact (Registry.size_reserve_of_none hk).trans (congrArg (· + 1) ih)
  | @bound past _ _ t id _ _ hk ih => exact (Registry.size_bind_of_none hk).trans (congrArg (· + 1) ih)
  | expanded _ _ ih | ended _ _ ih => exact ih

end Orderly

/-! ## Slots -/

/-- The slots are as the journal says, where records with these ids are under construction. -/
structure SlotTally (es : List Event) (ids : List BundleId) : Prop where
  /-- There is a slot just for the ids of records that have been begun. -/
  slot : ∀ id, (replay es).table.slot? id ≠ none ↔ ∃ key, .began key id ∈ es
  filled : ∀ id record, (replay es).table.slot? id = some (some record) ↔ .ended record ∈ es ∧ record.id = id
  empty : ∀ id, (replay es).table.slot? id = some none ↔ id ∈ ids
  nodup : ids.Nodup
  size : (replay es).table.size = (es.filterMap Event.begun?).length
  /-- No slot is filled twice. -/
  once : (es.filterMap Event.ended?).Nodup

namespace SlotTally

variable {past : List Event} {ids : List BundleId}

theorem start : SlotTally [] [] := by
  constructor
  · intro id
    simp [replay, Progress.start, RecordTable.slot?, RecordTable.empty]
  · intro id record
    simp [replay, Progress.start, RecordTable.slot?, RecordTable.empty]
  · intro id
    simp [replay, Progress.start, RecordTable.slot?, RecordTable.empty]
  · exact .nil
  · rfl
  · exact .nil

/-- Other events leave the slots as they are. -/
theorem other {e : Event} (h : SlotTally past ids) (hbegun : e.begun? = none) (hended : e.ended? = none) :
    SlotTally (e :: past) ids := by
  cases e with
  | began | ended => contradiction
  | issued | expanded | bound =>
    constructor
    · exact fun id => (h.slot id).trans (by simp)
    · exact fun id record => (h.filled id record).trans (by simp)
    · exact h.empty
    · exact h.nodup
    · exact h.size
    · exact h.once

theorem began {key : Identity} {id : BundleId} (h : SlotTally past ids) (hid : id = (replay past).registry.next)
    (hnone : (replay past).table.slot? id = none) : SlotTally (.began key id :: past) (id :: ids) := by
  have hslot : ∀ other, (replay (.began key id :: past)).table.slot? other =
      if other = id then some none else (replay past).table.slot? other := by
    intro other
    rw [replay, Progress.after, Progress.open_, ← hid, RecordTable.slot?_reserve, hnone]
    rfl
  have hself : (replay (.began key id :: past)).table.slot? id = some none := by rw [hslot, if_pos rfl]
  constructor
  · intro other
    by_cases he : other = id
    · simp [he, hself]
    · rw [hslot, if_neg he]
      simpa [he] using h.slot other
  · intro other record
    by_cases he : other = id
    · -- a slot that was missing cannot have been filled
      have hfilled := h.filled id record
      rw [hnone] at hfilled
      rw [he, hself]
      simpa using hfilled
    · rw [hslot, if_neg he]
      simpa using h.filled other record
  · intro other
    by_cases he : other = id
    · simp [he, hself]
    · rw [hslot, if_neg he]
      simpa [he] using h.empty other
  · refine List.nodup_cons.2 ⟨fun hmem => ?_, h.nodup⟩
    rw [(h.empty _).2 hmem] at hnone
    cases hnone
  · rw [replay, Progress.after, Progress.open_, ← hid, RecordTable.size_reserve_of_none hnone, h.size]
    rfl
  · exact h.once

theorem ended {record : Record} (h : SlotTally past (record.id :: ids)) : SlotTally (.ended record :: past) ids := by
  have hempty : (replay past).table.slot? record.id = some none := (h.empty _).2 List.mem_cons_self
  have hslot : ∀ id, (replay (.ended record :: past)).table.slot? id =
      if id = record.id then some (some record) else (replay past).table.slot? id :=
    RecordTable.slot?_fill_of_empty hempty
  have hself : (replay (.ended record :: past)).table.slot? record.id = some (some record) := by
    rw [hslot, if_pos rfl]
  -- the slot is empty, so no record with this id has been finished
  have hnot : ∀ other, .ended other ∈ past → other.id ≠ record.id := by
    intro other hmem hid
    have hfilled := (h.filled record.id other).2 ⟨hmem, hid⟩
    rw [hempty] at hfilled
    cases hfilled
  obtain ⟨hrecord, hnodup⟩ := List.nodup_cons.1 h.nodup
  constructor
  · intro id
    by_cases he : id = record.id
    · have hbegan := (h.slot record.id).1 (by simp [hempty])
      simpa [he, hself] using hbegan
    · rw [hslot, if_neg he]
      simpa using h.slot id
  · intro id other
    by_cases he : id = record.id
    · rw [he, hself]
      constructor
      · rintro ⟨rfl⟩
        exact ⟨List.mem_cons_self, rfl⟩
      · rintro ⟨hmem, hid⟩
        rcases List.mem_cons.1 hmem with heq | hmem
        · cases heq
          rfl
        · exact absurd hid (hnot other hmem)
    · rw [hslot, if_neg he, h.filled]
      refine and_congr_left fun hid => ?_
      have hne : other ≠ record := fun heq => he (by rw [← hid, heq])
      simp [hne]
  · intro id
    by_cases he : id = record.id
    · simpa [he, hself] using hrecord
    · rw [hslot, if_neg he]
      simpa [he] using h.empty id
  · exact hnodup
  · rw [replay, Progress.after, Progress.close, RecordTable.size_fill_of_some (by simp [hempty]), h.size]
    rfl
  · refine List.nodup_cons.2 ⟨fun hmem => ?_, h.once⟩
    obtain ⟨e, he, hid⟩ := List.mem_filterMap.1 hmem
    cases e with
    | ended other => exact hnot other he (Option.some.inj hid)
    | issued | began | expanded | bound => cases hid

end SlotTally

/-! ## Ids -/

/-- The ids and the slots are as the journal and its tasks say. -/
structure Tallies (host : Host) (es : List Event) (tasks : List Task) : Prop where
  numbered : (replay es).registry.Numbered host
  slots : SlotTally es (tasks.map (·.id))
  alone : ∀ x ∈ tasks, x.IsAlone → ∀ key, (replay es).registry.get? key = some x.id → key = x.key

namespace Tallies

variable {host : Host} {past : List Event} {tasks : List Task}

theorem start : Tallies host [] [] :=
  ⟨.empty, .start, fun _ hx => absurd hx List.not_mem_nil⟩

/-- The next id is not that of a task. -/
theorem ne_next (h : Tallies host past tasks) (ho : Orderly host past tasks)
    (hn : (replay past).registry.issued < 2 ^ 32) {x : Task} (hx : x ∈ tasks) :
    x.id ≠ (replay past).registry.next := by
  intro hid
  exact h.numbered.get?_ne_next hn x.key (hid ▸ ho.get?_of_mem hx)

theorem issued (h : Tallies host past tasks) (ho : Orderly host past tasks) {t : TypeId}
    (hk : (replay past).registry.get? (.type t) = none) (hn : (replay past).registry.issued < 2 ^ 32) :
    Tallies host (.issued t (replay past).registry.next :: past) tasks := by
  refine ⟨h.numbered.reserve hk hn, h.slots.other rfl rfl, ?_⟩
  intro x hx halone key hkey
  have hget := (Registry.get?_reserve_of_none hk key).symm.trans hkey
  split at hget
  · exact absurd (Option.some.inj hget).symm (h.ne_next ho hn hx)
  · exact h.alone x hx halone key hget

theorem began (h : Tallies host past tasks) (ho : Orderly host past tasks) {key : Identity}
    (hk : (replay past).registry.get? key = none) (hn : (replay past).registry.issued < 2 ^ 32) :
    Tallies host (.began key (replay past).registry.next :: past)
      (⟨key, (replay past).registry.next, .begun⟩ :: tasks) := by
  have hnone : (replay past).table.slot? (replay past).registry.next = none := by
    by_contra hs
    obtain ⟨other, hother⟩ := (h.slots.slot _).1 hs
    exact h.numbered.get?_ne_next hn other (ho.get?_of_began hother)
  refine ⟨h.numbered.reserve hk hn, h.slots.began rfl hnone, ?_⟩
  intro x hx halone other hother
  have hget := (Registry.get?_reserve_of_none hk other).symm.trans hother
  rcases List.mem_cons.1 hx with rfl | hx
  · -- nothing had the new id before
    split at hget
    · assumption
    · exact absurd hget (h.numbered.get?_ne_next hn other)
  · split at hget
    · exact absurd (Option.some.inj hget).symm (h.ne_next ho hn hx)
    · exact h.alone x hx halone other hget

theorem expanded {x : Task} {key : Identity} (h : Tallies host past (x :: tasks)) :
    Tallies host (.expanded key :: past) (x.advance :: tasks) := by
  refine ⟨h.numbered, ?_, ?_⟩
  · rw [List.map_cons, Task.advance_id]
    exact h.slots.other rfl rfl
  · intro y hy halone other hother
    rcases List.mem_cons.1 hy with rfl | hy
    · rw [Task.advance_id] at hother
      rw [Task.advance_key]
      exact h.alone x List.mem_cons_self (Task.isAlone_of_advance halone) other hother
    · exact h.alone y (List.mem_cons_of_mem _ hy) halone other hother

theorem bound {s : SymbolId} {t : TypeId} {id : BundleId} (h : Tallies host past (⟨.alias_ s, id, .expanded⟩ :: tasks))
    (ho : Orderly host past (⟨.alias_ s, id, .expanded⟩ :: tasks)) (hl : host.IsLiteralOf s t)
    (hk : (replay past).registry.get? (.type t) = none) :
    Tallies host (.bound t id :: past) (⟨.alias_ s, id, .sharing t⟩ :: tasks) := by
  have hs : (replay past).registry.get? (.alias_ s) = some id := by
    have hself := ho.get?_of_mem List.mem_cons_self
    exact hself
  have honly : ∀ other, (replay past).registry.get? other = some id → other = .alias_ s :=
    h.alone _ List.mem_cons_self (.inr rfl)
  refine ⟨h.numbered.bind hk hs honly hl, h.slots.other rfl rfl, ?_⟩
  intro x hx halone other hother
  rcases List.mem_cons.1 hx with rfl | hx
  · -- the alias shares its id now
    rcases halone with hstage | hstage <;> cases hstage
  · have hget := (Registry.get?_bind (replay past).registry (.type t) other id).symm.trans hother
    rw [hk] at hget
    split at hget
    · -- the id that is shared is not that of another task
      refine absurd (List.mem_map.2 ⟨x, hx, ?_⟩) (List.nodup_cons.1 h.slots.nodup).1
      exact (Option.some.inj hget).symm
    · exact h.alone x (List.mem_cons_of_mem _ hx) halone other hget

theorem ended {x : Task} {record : Record} (h : Tallies host past (x :: tasks)) (hid : record.id = x.id) :
    Tallies host (.ended record :: past) tasks := by
  refine ⟨h.numbered, ?_, fun y hy => h.alone y (List.mem_cons_of_mem _ hy)⟩
  apply SlotTally.ended
  rw [hid]
  exact h.slots

end Tallies

namespace Orderly

variable {host : Host} {es : List Event} {tasks : List Task}

/-- An orderly journal tallies until the ids run out. -/
theorem tallies (h : Orderly host es tasks) (hn : (replay es).registry.issued ≤ 2 ^ 32) : Tallies host es tasks := by
  -- ids that have not run out by the end of the journal have not run out at any event of it
  induction h with
  | start => exact .start
  | issued h hk ih => exact (ih (issued_le_of_cons hn)).issued h hk (issued_lt_of_reserve hk hn)
  | began h hk ih => exact (ih (issued_le_of_cons hn)).began h hk (issued_lt_of_reserve hk hn)
  | expanded _ _ ih => exact (ih (issued_le_of_cons hn)).expanded
  | bound h hl hk ih => exact (ih (issued_le_of_cons hn)).bound h hl hk
  | ended _ hid ih => exact (ih (issued_le_of_cons hn)).ended hid

end Orderly

end TypeBundle
