import TypeBundle.Proofs.Pass.RecordTable
import TypeBundle.Proofs.Pass.Registry
import TypeBundle.Proofs.Pass.Represents
import TypeBundle.Proofs.Walk.Expanding
/-!
# Consistent progress

What a walk has done at any time: ids are numbered from zero and shared only by an alias with the
literal that it names; every identity has its record, unless it is a type parameter, whose id never
gets a slot, or its record is under construction. The ids of such records are given as `o`.

What has been said about an identity stays true as the walk goes on (`Progress.Extends`), so records
are required to represent their identity in every later progress.
-/

namespace TypeBundle

/-! ## Later progress -/

/-- A later progress: nothing that was handed out or finished has changed. -/
structure Progress.Extends (p q : Progress) : Prop where
  issued : p.registry.issued ≤ q.registry.issued
  ids : ∀ {key id}, p.registry.get? key = some id → q.registry.get? key = some id
  records : ∀ {id record}, p.table.get? id = some record → q.table.get? id = some record

namespace Progress.Extends

variable {p q r : Progress} {key : Identity} {id : BundleId}

theorem refl (p : Progress) : p.Extends p := ⟨Nat.le_refl _, id, id⟩

theorem trans (h₁ : p.Extends q) (h₂ : q.Extends r) : p.Extends r :=
  ⟨Nat.le_trans h₁.issued h₂.issued, fun h => h₂.ids (h₁.ids h), fun h => h₂.records (h₁.records h)⟩

theorem reserve (p : Progress) (key : Identity) : p.Extends { p with registry := (p.registry.reserve key).2 } := by
  constructor
  · cases hk : p.registry.get? key with
    | some id => simp [Registry.reserve_of_some hk]
    | none => simp [Registry.issued_reserve_of_none hk]
  · exact Registry.get?_reserve_of_some
  · exact id

theorem open_ (p : Progress) (key : Identity) : p.Extends (p.open_ key) :=
  ⟨(reserve p key).issued, (reserve p key).ids, fun h => by simpa [Progress.open_, RecordTable.get?_reserve] using h⟩

theorem share (p : Progress) (key : Identity) (id : BundleId) : p.Extends (p.share key id) :=
  ⟨Nat.le_of_eq Registry.issued_bind.symm, Registry.get?_bind_of_some, fun h => h⟩

theorem close (p : Progress) (record : Record) : p.Extends (p.close record) :=
  ⟨Nat.le_refl _, fun h => h, fun h => RecordTable.get?_fill_of_some h record⟩

end Progress.Extends

/-! ## Numbers -/

/-- The identities share an id: an alias and the object literal that it names. -/
def Host.Shares (host : Host) (a b : Identity) : Prop :=
  ∃ s d, host.IsLiteralOf s d ∧ (a = .alias_ s ∧ b = .type d ∨ a = .type d ∧ b = .alias_ s)

/-- The ids in use are the numbers below that of the ids handed out, and only an alias shares its id. -/
structure Registry.Numbered (host : Host) (r : Registry) : Prop where
  lt : ∀ {key id}, r.get? key = some id → id.val.toNat < r.issued
  used : ∀ {id : BundleId}, id.val.toNat < r.issued → ∃ key, r.get? key = some id
  shared : ∀ {a b id}, r.get? a = some id → r.get? b = some id → a = b ∨ host.Shares a b

namespace Registry

variable {host : Host} {r : Registry} {key : Identity}

theorem toNat_next (h : r.issued < 2 ^ 32) : r.next.val.toNat = r.issued :=
  UInt32.toNat_ofNat_of_lt h

theorem eq_next {id : BundleId} (h : id.val.toNat = r.issued) : id = r.next := by
  obtain ⟨v⟩ := id
  simp only [next, BundleId.mk.injEq]
  rw [← h, UInt32.ofNat_toNat]

theorem Numbered.empty : Numbered host .empty := by
  constructor
  · intro key id h
    cases key <;> simp [get?, Registry.empty] at h
  · intro id h
    exact absurd h (Nat.not_lt_zero _)
  · intro a b id h
    cases a <;> simp [get?, Registry.empty] at h

theorem Numbered.get?_ne_next (hr : Numbered host r) (h : r.issued < 2 ^ 32) (other : Identity) :
    r.get? other ≠ some r.next := by
  intro ho
  have hlt := hr.lt ho
  rw [toNat_next h] at hlt
  exact Nat.lt_irrefl _ hlt

/-- A new id is the next number and belongs to one identity. -/
theorem Numbered.reserve (hr : Numbered host r) (hk : r.get? key = none) (h : r.issued < 2 ^ 32) :
    Numbered host (r.reserve key).2 := by
  have hget := get?_reserve_of_none hk
  constructor
  · intro other id ho
    rw [issued_reserve_of_none hk]
    rw [hget] at ho
    split at ho
    · cases ho
      rw [toNat_next h]
      exact Nat.lt_succ_self _
    · exact Nat.lt_succ_of_lt (hr.lt ho)
  · intro id hid
    rw [issued_reserve_of_none hk] at hid
    rcases Nat.lt_succ_iff_lt_or_eq.1 hid with hlt | heq
    · obtain ⟨other, ho⟩ := hr.used hlt
      exact ⟨other, get?_reserve_of_some ho⟩
    · exact ⟨key, by rw [hget, if_pos rfl, eq_next heq]⟩
  · intro a b id ha hb
    rw [hget] at ha hb
    -- the new id is no identity's but the new one's
    split at ha
    · rename_i ea
      cases ha
      split at hb
      · rename_i eb
        exact .inl (ea.trans eb.symm)
      · exact absurd hb (hr.get?_ne_next h b)
    · split at hb
      · cases hb
        exact absurd ha (hr.get?_ne_next h a)
      · exact hr.shared ha hb

/-- A literal may share the id of the alias that names it, if the alias alone has the id. -/
theorem Numbered.bind (hr : Numbered host r) {s : SymbolId} {d : TypeId} {id : BundleId}
    (hd : r.get? (.type d) = none) (hs : r.get? (.alias_ s) = some id)
    (honly : ∀ other, r.get? other = some id → other = .alias_ s) (hl : host.IsLiteralOf s d) :
    Numbered host (r.bind (.type d) id) := by
  have hget : ∀ other, (r.bind (.type d) id).get? other = if other = .type d then some id else r.get? other := by
    intro other
    rw [get?_bind, hd]
    rfl
  constructor
  · intro other k ho
    rw [issued_bind]
    rw [hget] at ho
    split at ho
    · cases ho
      exact hr.lt hs
    · exact hr.lt ho
  · intro k hk
    rw [issued_bind] at hk
    obtain ⟨other, ho⟩ := hr.used hk
    exact ⟨other, get?_bind_of_some ho⟩
  · intro a b k ha hb
    rw [hget] at ha hb
    -- whoever has the id of the literal is the literal or its alias
    split at ha
    · rename_i ea
      cases ha
      split at hb
      · rename_i eb
        exact .inl (ea.trans eb.symm)
      · exact .inr ⟨s, d, hl, .inr ⟨ea, honly b hb⟩⟩
    · split at hb
      · rename_i eb
        cases hb
        exact .inr ⟨s, d, hl, .inl ⟨honly a ha, eb⟩⟩
      · exact hr.shared ha hb

end Registry

/-! ## Progress -/

/-- The identity with the id is settled: it is a type parameter without a record, or has a record that
represents it from now on. -/
def Settled (host : Host) (settings : Settings) (p : Progress) (key : Identity) (id : BundleId) : Prop :=
  (p.table.slot? id = none ∧ ∃ t, key = .type t ∧ host.IsParameter t) ∨
    ∃ record, p.table.get? id = some record ∧ ∀ r, p.Extends r → RepresentsRecord host settings r key record

/-- What a walk has done at any time, while the records with ids in `o` are under construction. -/
structure Consistent (host : Host) (settings : Settings) (o : BundleId → Prop) (p : Progress) : Prop where
  numbered : p.registry.Numbered host
  slot_lt : ∀ {id slot}, p.table.slot? id = some slot → id.val.toNat < p.registry.issued
  keyed : p.table.Keyed
  empty : ∀ {id}, o id → p.table.slot? id = some none
  settled : ∀ {key id}, p.registry.get? key = some id → ¬o id → Settled host settings p key id

theorem Settled.extends {host : Host} {settings : Settings} {p q : Progress} {key : Identity} {id : BundleId}
    (h : Settled host settings p key id) (hpq : p.Extends q)
    (hslot : p.table.slot? id = none → q.table.slot? id = none) : Settled host settings q key id := by
  rcases h with ⟨hs, ht⟩ | ⟨record, hr, hrep⟩
  · exact .inl ⟨hslot hs, ht⟩
  · refine .inr ⟨record, hpq.records hr, ?_⟩
    intro r hqr
    exact hrep r (hpq.trans hqr)

namespace Consistent

variable {host : Host} {settings : Settings} {o : BundleId → Prop} {p : Progress} {key : Identity}

theorem start : Consistent host settings (fun _ => False) .start := by
  constructor
  · exact .empty
  · intro id slot h
    simp [Progress.start, RecordTable.slot?, RecordTable.empty] at h
  · intro id record h
    simp [Progress.start, RecordTable.slot?, RecordTable.empty] at h
  · exact False.elim
  · intro key id h
    cases key <;> simp [Progress.start, Registry.get?, Registry.empty] at h

theorem slot?_next (hp : Consistent host settings o p) (h : p.registry.issued < 2 ^ 32) :
    p.table.slot? p.registry.next = none := by
  cases hs : p.table.slot? p.registry.next with
  | none => rfl
  | some slot =>
    have hlt := hp.slot_lt hs
    rw [Registry.toNat_next h] at hlt
    exact absurd hlt (Nat.lt_irrefl _)

/-- When no record is under construction, no slot is empty. -/
theorem slot?_ne_empty (hp : Consistent host settings (fun _ => False) p) (id : BundleId) :
    p.table.slot? id ≠ some none := by
  intro hs
  obtain ⟨key, hkey⟩ := hp.numbered.used (hp.slot_lt hs)
  rcases hp.settled hkey False.elim with ⟨hnone, -⟩ | ⟨record, hr, -⟩
  · rw [hs] at hnone
    cases hnone
  · rw [RecordTable.get?_of_empty hs] at hr
    cases hr

/-- A type parameter gets an id without a slot. -/
theorem reserve {t : TypeId} (hp : Consistent host settings o p) (ht : host.IsParameter t)
    (h : (p.registry.reserve (.type t)).2.issued ≤ 2 ^ 32) :
    Consistent host settings o { p with registry := (p.registry.reserve (.type t)).2 } := by
  cases hk : p.registry.get? (.type t) with
  | some id =>
    rw [Registry.reserve_of_some hk]
    exact hp
  | none =>
    rw [Registry.issued_reserve_of_none hk] at h
    constructor
    · exact hp.numbered.reserve hk h
    · intro id slot hs
      rw [Registry.issued_reserve_of_none hk]
      exact Nat.lt_succ_of_lt (hp.slot_lt hs)
    · exact hp.keyed
    · exact hp.empty
    · intro key id hkey ho
      rw [Registry.get?_reserve_of_none hk] at hkey
      split at hkey
      · rename_i e
        cases hkey
        exact .inl ⟨hp.slot?_next h, t, e, ht⟩
      · exact (hp.settled hkey ho).extends (.reserve p _) fun hs => hs

/-- A record is begun. -/
theorem open_ (hp : Consistent host settings o p) (hk : p.registry.get? key = none) (h : p.registry.issued < 2 ^ 32) :
    Consistent host settings (fun id => o id ∨ id = p.registry.next) (p.open_ key) := by
  have hslot : ∀ id, (p.open_ key).table.slot? id = if id = p.registry.next then some none else p.table.slot? id := by
    intro id
    rw [Progress.open_, RecordTable.slot?_reserve, hp.slot?_next h]
    rfl
  have hissued : (p.open_ key).registry.issued = p.registry.issued + 1 := Registry.issued_reserve_of_none hk
  constructor
  · exact hp.numbered.reserve hk h
  · intro id slot hs
    rw [hslot] at hs
    rw [hissued]
    split at hs
    · rename_i e
      rw [e, Registry.toNat_next h]
      exact Nat.lt_succ_self _
    · exact Nat.lt_succ_of_lt (hp.slot_lt hs)
  · intro id record hs
    rw [hslot] at hs
    split at hs
    · cases hs
    · exact hp.keyed id record hs
  · intro id ho
    rw [hslot]
    split
    · rfl
    · rename_i e
      exact hp.empty (ho.resolve_right e)
  · intro other id hother ho
    rw [not_or] at ho
    have hother' := (Registry.get?_reserve_of_none hk other).symm.trans hother
    split at hother'
    · cases hother'
      exact absurd rfl ho.2
    · refine (hp.settled hother' ho.1).extends (.open_ p key) fun hs => ?_
      rw [hslot, if_neg ho.2]
      exact hs

/-- A literal gets the id of the alias that names it, whose record is under construction. -/
theorem share (hp : Consistent host settings o p) {s : SymbolId} {d : TypeId} {id : BundleId} (ho : o id)
    (hd : p.registry.get? (.type d) = none) (hs : p.registry.get? (.alias_ s) = some id)
    (honly : ∀ other, p.registry.get? other = some id → other = .alias_ s) (hl : host.IsLiteralOf s d) :
    Consistent host settings o (p.share (.type d) id) := by
  constructor
  · exact hp.numbered.bind hd hs honly hl
  · intro k slot h
    exact Nat.lt_of_lt_of_eq (hp.slot_lt h) Registry.issued_bind.symm
  · exact hp.keyed
  · exact hp.empty
  · intro other k hother hk
    have hother' := (Registry.get?_bind p.registry (.type d) other id).symm.trans hother
    rw [hd] at hother'
    split at hother'
    · cases hother'
      exact absurd ho hk
    · exact (hp.settled hother' hk).extends (.share p _ _) fun h => h

theorem get?_close {record : Record} (hp : Consistent host settings o p) (ho : o record.id) :
    (p.close record).table.get? record.id = some record := by
  rw [Progress.close, RecordTable.get?_eq_some, RecordTable.slot?_fill_of_empty (hp.empty ho), if_pos rfl]

/-- A record is finished. -/
theorem close {record : Record} (hp : Consistent host settings (fun id => o id ∨ id = record.id) p)
    (ho : ¬o record.id)
    (hrep : ∀ key, p.registry.get? key = some record.id → ∀ r, (p.close record).Extends r →
      RepresentsRecord host settings r key record) :
    Consistent host settings o (p.close record) := by
  have hempty : p.table.slot? record.id = some none := hp.empty (.inr rfl)
  have hslot : ∀ id, (p.close record).table.slot? id =
      if id = record.id then some (some record) else p.table.slot? id := RecordTable.slot?_fill_of_empty hempty
  constructor
  · exact hp.numbered
  · intro id slot hs
    rw [hslot] at hs
    split at hs
    · rename_i e
      exact hp.slot_lt (e ▸ hempty)
    · exact hp.slot_lt hs
  · intro id other hs
    rw [hslot] at hs
    split at hs
    · rename_i e
      cases hs
      exact e.symm
    · exact hp.keyed id other hs
  · intro id hid
    rw [hslot, if_neg]
    · exact hp.empty (.inl hid)
    · rintro rfl
      exact ho hid
  · intro key id hkey hid
    by_cases e : id = record.id
    · subst e
      refine .inr ⟨record, ?_, hrep key hkey⟩
      rw [RecordTable.get?_eq_some, hslot, if_pos rfl]
    · refine (hp.settled hkey fun h => h.elim hid e).extends (.close p record) fun hs => ?_
      rw [hslot, if_neg e]
      exact hs

end Consistent

end TypeBundle
