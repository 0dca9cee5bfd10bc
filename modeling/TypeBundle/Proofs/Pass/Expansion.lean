import TypeBundle.Proofs.Pass.Session
/-!
# Every identity is expanded once

However a type is reached, and in whatever order, its shape is walked at most once, and so is the record of an
alias. An id belongs to one identity, or to an alias and the literal that it names, to which the alias gave it
while it was expanded (`one_expansion`).
-/

namespace TypeBundle

/-- The alias may give its id to the literal that it names: it is being expanded, and the literal has no id. -/
structure GivesId (host : Host) (past : List Event) (s : SymbolId) (t : TypeId) (id : BundleId) : Prop where
  literal : host.IsLiteralOf s t
  registered : (replay past).registry.get? (.alias_ s) = some id
  expanded : .expanded (.alias_ s) ∈ past
  unfinished : UnderConstruction past id
  unregistered : (replay past).registry.get? (.type t) = none

/-- Of the two identities one is an alias and the other the literal to which it gave its id. -/
def GaveId (host : Host) (es : List Event) (a b : Identity) (id : BundleId) : Prop :=
  ∃ s t before, (a = .alias_ s ∧ b = .type t ∨ a = .type t ∧ b = .alias_ s) ∧ .bound t id :: before <:+ es ∧
    GivesId host before s t id

/-- What a journal says about expansions and ids, at its end and at any moment before. -/
structure OneExpansion (host : Host) (es : List Event) : Prop where
  /-- No shape of a type and no record of an alias is walked twice. -/
  expanded : (es.filterMap Event.expanded?).Nodup
  /-- No identity is given two slots. -/
  begun : (es.filterMap Event.begun?).Nodup
  /-- Two identities have one id only if the one gave it to the other. -/
  shared : ∀ past, past <:+ es → ∀ a b id, (replay past).registry.get? a = some id →
    (replay past).registry.get? b = some id → a ≠ b → GaveId host past a b id
  /-- No three identities have one id. -/
  pairs : ∀ past, past <:+ es → ∀ a b c id, (replay past).registry.get? a = some id →
    (replay past).registry.get? b = some id → (replay past).registry.get? c = some id → a = b ∨ a = c ∨ b = c

variable {host : Host} {es : List Event} {tasks : List Task}

theorem GaveId.cons {a b : Identity} {id : BundleId} (h : GaveId host es a b id) (e : Event) :
    GaveId host (e :: es) a b id := by
  obtain ⟨s, t, before, hab, hsuffix, hgives⟩ := h
  exact ⟨s, t, before, hab, hsuffix.trans (List.suffix_cons _ _), hgives⟩

/-- What shares an id after an identity has got a new one has shared it before. -/
theorem Registry.Numbered.shared_before {r : Registry} {key a b : Identity} {id : BundleId} (hr : r.Numbered host)
    (hk : r.get? key = none) (hn : r.issued < 2 ^ 32) (ha : (r.reserve key).2.get? a = some id)
    (hb : (r.reserve key).2.get? b = some id) (hne : a ≠ b) : r.get? a = some id ∧ r.get? b = some id := by
  rw [get?_reserve_of_none hk] at ha hb
  split at ha
  · rename_i hakey
    split at hb
    · rename_i hbkey
      exact absurd (hakey.trans hbkey.symm) hne
    · exact absurd (hb.trans ha.symm) (hr.get?_ne_next hn b)
  · split at hb
    · exact absurd (ha.trans hb.symm) (hr.get?_ne_next hn a)
    · exact ⟨ha, hb⟩

/-- At most two identities have one id. -/
theorem Registry.Numbered.pairs {r : Registry} {a b c : Identity} {id : BundleId} (hr : r.Numbered host)
    (ha : r.get? a = some id) (hb : r.get? b = some id) (hc : r.get? c = some id) : a = b ∨ a = c ∨ b = c := by
  rcases hr.shared ha hb with hab | ⟨s, t, hl, hab⟩
  · exact .inl hab
  · rcases hr.shared ha hc with hac | ⟨s', t', hl', hac⟩
    · exact .inr (.inl hac)
    · -- both share with the same alias, or with the same literal
      refine .inr (.inr ?_)
      rcases hab with ⟨rfl, rfl⟩ | ⟨rfl, rfl⟩
      · rcases hac with ⟨hs, rfl⟩ | ⟨hs, -⟩
        · cases hs
          rw [Option.some.inj (hl.1.symm.trans hl'.1)]
        · cases hs
      · rcases hr.shared hb hc with hbc | ⟨s'', t'', -, ⟨-, rfl⟩ | ⟨hs, -⟩⟩
        · exact hbc
        · rcases hac with ⟨ht, -⟩ | ⟨-, hc⟩
          · cases ht
          · cases hc
        · cases hs

namespace Orderly

/-- The last task may give its id to its literal. -/
theorem givesId {past : List Event} {s : SymbolId} {t : TypeId} {id : BundleId}
    (h : Orderly host past (⟨.alias_ s, id, .expanded⟩ :: tasks)) (hl : host.IsLiteralOf s t)
    (hk : (replay past).registry.get? (.type t) = none) (hn : (replay past).registry.issued ≤ 2 ^ 32) :
    GivesId host past s t id := by
  have hslots := (h.tallies hn).slots
  have hself := h.get?_of_mem List.mem_cons_self
  have hexpanded := h.expanded_of_mem List.mem_cons_self Stage.noConfusion
  exact ⟨hl, hself, hexpanded, (hslots.empty_iff id).1 ((hslots.empty id).2 List.mem_cons_self), hk⟩

/-- An id is shared from the moment on at which an alias has given it to its literal. -/
theorem gaveId (h : Orderly host es tasks) (hn : (replay es).registry.issued ≤ 2 ^ 32) {a b : Identity}
    {id : BundleId} (ha : (replay es).registry.get? a = some id) (hb : (replay es).registry.get? b = some id)
    (hne : a ≠ b) : GaveId host es a b id := by
  induction h with
  | start => cases a <;> simp [replay, Progress.start, Registry.get?, Registry.empty] at ha
  | issued h hk ih =>
    have hnumbered := (h.tallies (issued_le_of_cons hn)).numbered
    obtain ⟨ha', hb'⟩ := hnumbered.shared_before hk (issued_lt_of_reserve hk hn) ha hb hne
    exact (ih (issued_le_of_cons hn) ha' hb').cons _
  | began h hk ih =>
    have hnumbered := (h.tallies (issued_le_of_cons hn)).numbered
    obtain ⟨ha', hb'⟩ := hnumbered.shared_before hk (issued_lt_of_reserve hk hn) ha hb hne
    exact (ih (issued_le_of_cons hn) ha' hb').cons _
  | expanded _ _ ih | ended _ _ ih => exact (ih (issued_le_of_cons hn) ha hb).cons _
  | @bound past tasks s t k h hl hk ih =>
    have hgives := h.givesId hl hk (issued_le_of_cons hn)
    -- until now the id has been that of the alias alone
    have halone := (h.tallies (issued_le_of_cons hn)).alone _ List.mem_cons_self (.inr rfl)
    have hget : ∀ other, (replay (.bound t k :: past)).registry.get? other =
        if other = .type t then some k else (replay past).registry.get? other := by
      intro other
      rw [replay, Progress.after, Progress.share, Registry.get?_bind, hk]
      rfl
    rw [hget] at ha hb
    split at ha
    · rename_i hat
      cases ha
      split at hb
      · rename_i hbt
        exact absurd (hat.trans hbt.symm) hne
      · exact ⟨s, t, past, .inr ⟨hat, halone b hb⟩, List.suffix_refl _, hgives⟩
    · split at hb
      · rename_i hbt
        cases hb
        exact ⟨s, t, past, .inl ⟨halone a ha, hbt⟩, List.suffix_refl _, hgives⟩
      · exact (ih (issued_le_of_cons hn) ha hb).cons _

end Orderly

/-! ## The theorem -/

/-- In a session that has ids left, every identity is expanded at most once, and only an alias shares its id, with the
literal that it names. -/
theorem one_expansion (host : Host) (settings : Settings) (requests : List Request)
    (hn : (Session.progress host settings requests).registry.issued < 2 ^ 32) :
    OneExpansion host (Session.journal host settings requests) ∧
      replay (Session.journal host settings requests) = Session.progress host settings requests := by
  obtain ⟨⟨tasks, h⟩, hp⟩ := Session.orderly host settings requests
  have hle : ∀ past, past <:+ Session.journal host settings requests → (replay past).registry.issued ≤ 2 ^ 32 := by
    intro past hpast
    have hissued := (extends_of_suffix hpast).issued
    rw [hp] at hissued
    exact Nat.le_of_lt (Nat.lt_of_le_of_lt hissued hn)
  refine ⟨?_, hp⟩
  constructor
  · exact h.nodup_expanded
  · exact h.nodup_begun
  · intro past hpast a b id ha hb hne
    obtain ⟨left, hleft⟩ := h.of_suffix hpast
    exact hleft.gaveId (hle past hpast) ha hb hne
  · intro past hpast a b c id ha hb hc
    obtain ⟨left, hleft⟩ := h.of_suffix hpast
    exact (hleft.tallies (hle past hpast)).numbered.pairs ha hb hc

/-- The global scope of a snapshot with aliases of a tuple, a function, a recursive literal and a primitive. -/
theorem one_expansion_aliases : ∃ l, Sample.aliases.loaded? = some l ∧
    OneExpansion l.host (Session.journal l.host default [⟨⟨0⟩, l.depth⟩]) := by
  have hsession : (Sample.aliases.loaded?.any fun l =>
      (Session.progress l.host default [⟨⟨0⟩, l.depth⟩]).registry.issued < 2 ^ 32) = true := by
    decide +kernel
  obtain ⟨l, hl, hn⟩ := (Option.any_eq_true _ _).1 hsession
  exact ⟨l, hl, (one_expansion l.host default _ (of_decide_eq_true hn)).1⟩

end TypeBundle
