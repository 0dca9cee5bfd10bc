import TypeBundle.Proofs.Walk.Consistent
import TypeBundle.Proofs.Walk.Keeps
/-!
# What a walk yields

`Yields w post`: the walk `w` changes nothing that was handed out or finished, takes consistent progress
to consistent progress, and its result satisfies `post` then and in every later progress. A walk that
stops may leave more records under construction, and nothing else. All this holds as long as there are
ids to hand out.

First the rules for sequences, lists and records, then one lemma for each rule of a walk.
-/

namespace TypeBundle

/-- No identity has got an id that had been handed out before, except this one. -/
def Progress.Apart (except? : Option BundleId) (p q : Progress) : Prop :=
  ∀ key id, q.registry.get? key = some id → id.val.toNat < p.registry.issued →
    p.registry.get? key = some id ∨ except? = some id

namespace Progress.Apart

variable {except? : Option BundleId} {p q r : Progress}

theorem refl (p : Progress) : p.Apart except? p := fun _ _ h _ => .inl h

theorem trans (h₁ : p.Apart except? q) (h₂ : q.Apart except? r) (hpq : p.Extends q) : p.Apart except? r := by
  intro key id hr hlt
  rcases h₂ key id hr (Nat.lt_of_lt_of_le hlt hpq.issued) with hq | he
  · exact h₁ key id hq hlt
  · exact .inr he

theorem weaken {first? : Option BundleId} (hx : first? = none ∨ first? = except?) (h : p.Apart first? q) :
    p.Apart except? q := by
  rcases hx with rfl | rfl
  · exact fun key id hq hlt => .inl ((h key id hq hlt).resolve_right (by simp))
  · exact h

theorem reserve {key : Identity} (h : (p.registry.reserve key).2.issued ≤ 2 ^ 32) :
    p.Apart except? { p with registry := (p.registry.reserve key).2 } := by
  intro other id ho hlt
  cases hk : p.registry.get? key with
  | some id =>
    rw [Registry.reserve_of_some hk] at ho
    exact .inl ho
  | none =>
    rw [Registry.issued_reserve_of_none hk] at h
    rw [Registry.get?_reserve_of_none hk] at ho
    split at ho
    · cases ho
      rw [Registry.toNat_next h] at hlt
      exact absurd hlt (Nat.lt_irrefl _)
    · exact .inl ho

end Progress.Apart

/-- The id of an identity, if it may be shared while the record is under construction. -/
def Identity.sharable : Identity → BundleId → Option BundleId
  | .type _, _ => none
  | .alias_ _, id => some id

namespace Walk

variable {α β : Type} (host : Host) (settings : Settings)

/-- The walk changes nothing that was handed out or finished. -/
def Grows (w : Walk α) : Prop := ∀ p : Progress, Keeps p.Extends (fun _ => True) w

/-- What a walk from certain consistent progress leaves, where only the id `except?` may be shared. -/
def YieldsFrom (except? : Option BundleId) (o : BundleId → Prop) (p : Progress) (w : Walk α)
    (post : Progress → α → Prop) : Prop :=
  match w p with
  | .ok a q => q.registry.issued ≤ 2 ^ 32 →
      Consistent host settings o q ∧ p.Extends q ∧ p.Apart except? q ∧ ∀ r, q.Extends r → post r a
  | .error _ q => q.registry.issued ≤ 2 ^ 32 → ∃ o', (∀ id, o id → o' id) ∧ Consistent host settings o' q

/-- What a walk leaves, whatever it starts from. -/
structure Yields (w : Walk α) (post : Progress → α → Prop) : Prop where
  grows : Grows w
  from_ : ∀ {o p}, Consistent host settings o p → YieldsFrom host settings none o p w post

variable {host settings}

theorem Grows.ok {w : Walk α} (hw : Grows w) {p q : Progress} {a : α} (h : w p = .ok a q) : p.Extends q := by
  have hkeep := hw p p (.refl p)
  rw [h] at hkeep
  exact hkeep

theorem Grows.error {w : Walk α} (hw : Grows w) {p q : Progress} {e : Stop} (h : w p = .error e q) :
    p.Extends q := by
  have hkeep := hw p p (.refl p)
  rw [h] at hkeep
  exact hkeep.1

/-! ## Sequences and lists -/

namespace YieldsFrom

variable {except? : Option BundleId} {o : BundleId → Prop} {p : Progress}

theorem pure {a : α} {post : Progress → α → Prop} (hp : Consistent host settings o p)
    (h : ∀ r, p.Extends r → post r a) : YieldsFrom host settings except? o p (Pure.pure a) post :=
  fun _ => ⟨hp, .refl p, .refl p, h⟩

theorem fail {failure : Failure} {post : Progress → α → Prop} (hp : Consistent host settings o p) :
    YieldsFrom host settings except? o p (Walk.fail failure) post := fun _ => ⟨o, fun _ h => h, hp⟩

theorem weaken {w : Walk α} {P Q : Progress → α → Prop} (h : YieldsFrom host settings none o p w P)
    (hPQ : ∀ r a, p.Extends r → P r a → Q r a) : YieldsFrom host settings except? o p w Q := by
  unfold YieldsFrom at h ⊢
  cases hr : w p with
  | ok a q =>
    rw [hr] at h
    intro hq
    obtain ⟨hc, hpq, ha, hpost⟩ := h hq
    refine ⟨hc, hpq, ha.weaken (.inl rfl), ?_⟩
    intro r hqr
    exact hPQ r a (hpq.trans hqr) (hpost r hqr)
  | error e q =>
    rw [hr] at h
    exact h

/-- What the second walk yields may depend on what the first has yielded. -/
theorem bind {w : Walk α} {f : α → Walk β} {P : Progress → α → Prop} {Q : Progress → β → Prop}
    {first? : Option BundleId} (hx : first? = none ∨ first? = except?) (hw : YieldsFrom host settings first? o p w P)
    (hgrows : ∀ a, Grows (f a))
    (hf : ∀ a q, Consistent host settings o q → p.Extends q → p.Apart first? q →
      YieldsFrom host settings except? o q (f a) fun r b => P r a → Q r b) :
    YieldsFrom host settings except? o p (w >>= f) Q := by
  unfold YieldsFrom at hw ⊢
  rw [seq_apply]
  cases hr : w p with
  | error e q =>
    rw [hr] at hw
    exact hw
  | ok a q =>
    rw [hr] at hw
    simp only
    -- ids that are left after the second walk were left after the first, for the second only grows
    cases hs : f a q with
    | ok b q' =>
      intro hq'
      obtain ⟨hc, hpq, hapart, hP⟩ := hw (Nat.le_trans ((hgrows a).ok hs).issued hq')
      have h := hf a q hc hpq hapart
      rw [YieldsFrom, hs] at h
      obtain ⟨hc', hqq', hapart', hQ⟩ := h hq'
      refine ⟨hc', hpq.trans hqq', (hapart.weaken hx).trans hapart' hpq, ?_⟩
      intro r hr
      exact hQ r hr (hP r (hqq'.trans hr))
    | error e q' =>
      intro hq'
      obtain ⟨hc, hpq, hapart, -⟩ := hw (Nat.le_trans ((hgrows a).error hs).issued hq')
      have h := hf a q hc hpq hapart
      rw [YieldsFrom, hs] at h
      exact h hq'

end YieldsFrom

namespace Yields

theorem pure {a : α} {post : Progress → α → Prop} (h : ∀ r, post r a) :
    Yields host settings (Pure.pure a : Walk α) post :=
  ⟨fun _ => .pure a, fun hp => .pure hp fun r _ => h r⟩

theorem fail {failure : Failure} {post : Progress → α → Prop} :
    Yields host settings (Walk.fail failure : Walk α) post := ⟨fun _ => .fail trivial, .fail⟩

theorem weaken {w : Walk α} {P Q : Progress → α → Prop} (h : Yields host settings w P)
    (hPQ : ∀ r a, P r a → Q r a) : Yields host settings w Q :=
  ⟨h.grows, fun hp => (h.from_ hp).weaken fun r a _ => hPQ r a⟩

theorem bind {w : Walk α} {f : α → Walk β} {P : Progress → α → Prop} {Q : Progress → β → Prop}
    (hw : Yields host settings w P) (hf : ∀ a, Yields host settings (f a) fun r b => P r a → Q r b) :
    Yields host settings (w >>= f) Q := by
  constructor
  · intro p
    exact .bind (hw.grows p) fun a => (hf a).grows p
  · intro o p hp
    refine .bind (.inl rfl) (hw.from_ hp) (fun a => (hf a).grows) ?_
    intro a q hq _ _
    exact (hf a).from_ hq

theorem map {w : Walk α} {f : α → β} {P : Progress → α → Prop} {Q : Progress → β → Prop}
    (hw : Yields host settings w P) (hPQ : ∀ r a, P r a → Q r (f a)) : Yields host settings (f <$> w) Q := by
  rw [map_eq_pure_bind]
  exact bind hw fun a => pure fun r => hPQ r a

theorem orUnexpected_bind {what : Unexpected} {a? : Option α} {f : α → Walk β} {Q : Progress → β → Prop}
    (h : ∀ a, a? = some a → Yields host settings (f a) Q) :
    Yields host settings (Walk.orUnexpected what a? >>= f) Q := by
  cases a? with
  | none => exact fail
  | some a => exact h a rfl

theorem mapM {f : α → Walk β} {as : List α} {P : α → Progress → β → Prop}
    (h : ∀ a ∈ as, Yields host settings (f a) (P a)) :
    Yields host settings (as.mapM f) fun r bs => List.Forall₂ (fun a b => P a r b) as bs := by
  induction as with
  | nil => exact pure fun _ => .nil
  | cons a as ih =>
    rw [List.mapM_cons]
    refine bind (h a List.mem_cons_self) ?_
    intro b
    refine bind (ih fun c hc => h c (List.mem_cons_of_mem _ hc)) ?_
    intro bs
    exact pure fun r hbs hb => .cons hb hbs

end Yields

/-! ## Records -/

/-- A type parameter gets its id. -/
theorem issue_yields {t : TypeId} (ht : host.IsParameter t) :
    Yields host settings (Ledger.issue t) fun r id => r.registry.get? (.type t) = some id := by
  constructor
  · intro p q hq
    exact hq.trans (.reserve q (.type t))
  · intro o p hp hq
    refine ⟨hp.reserve ht hq, .reserve p _, .reserve hq, ?_⟩
    intro r hr
    exact hr.ids (Registry.get?_reserve_self _ _)

section Expanding

variable {key : Identity} {again : BundleId → α} {first : BundleId → Walk (Record × α)}
variable {post : Progress → α → Prop}

theorem expanding_grows (hgrows : ∀ id, Grows (first id)) : Grows (expanding key again first) := by
  intro p
  apply Keeps.expanding
  · intro q hq _
    exact hq.trans (.open_ q key)
  · intro id
    exact hgrows id p
  · intro q record hq
    exact hq.trans (.close q record)
  · intro q hq
    exact hq

/-- A record that has been begun alone has its id. -/
theorem only_open {p : Progress} (hp : p.registry.Numbered host) (hk : p.registry.get? key = none)
    (h : p.registry.issued < 2 ^ 32) (other : Identity)
    (ho : (p.open_ key).registry.get? other = some p.registry.next) : other = key := by
  rw [Progress.open_, Registry.get?_reserve_of_none hk] at ho
  split at ho
  · assumption
  · exact absurd ho (hp.get?_ne_next h other)

/-- Who has the id of a record that is finished: the identity, and the literal that it names. -/
theorem represents_shared {p q r : Progress} {record : Record} (hq : q.registry.Numbered host) (hqr : q.Extends r)
    (hapart : p.Apart (key.sharable record.id) q) (hlt : record.id.val.toNat < p.registry.issued)
    (honly : ∀ other, p.registry.get? other = some record.id → other = key)
    (hkey : q.registry.get? key = some record.id) (hrep : RepresentsRecord host settings r key record)
    {other : Identity} (ho : q.registry.get? other = some record.id) :
    RepresentsRecord host settings r other record := by
  rcases hq.shared hkey ho with rfl | ⟨s, d, hl, ⟨rfl, rfl⟩ | ⟨rfl, rfl⟩⟩
  · exact hrep
  · exact .shared hl ((hqr.ids hkey).trans (hqr.ids ho).symm) hrep
  · rcases hapart _ _ ho hlt with h | h
    · exact absurd (honly _ h) (by simp)
    · cases h

/-- Ids that had been handed out before a record was begun are not shared by what it mentions. -/
theorem apart_open {p q : Progress} (hk : p.registry.get? key = none) (h : p.registry.issued < 2 ^ 32)
    (hapart : (p.open_ key).Apart (key.sharable p.registry.next) q) : p.Apart none q := by
  intro other id hother hlt
  have hlt' : id.val.toNat < (p.open_ key).registry.issued :=
    Nat.lt_of_lt_of_le hlt (Progress.Extends.open_ p key).issued
  have hne : id ≠ p.registry.next := by
    rintro rfl
    rw [Registry.toNat_next h] at hlt
    exact absurd hlt (Nat.lt_irrefl _)
  rcases hapart other id hother hlt' with ho | ho
  · rw [Progress.open_, Registry.get?_reserve_of_none hk] at ho
    split at ho
    · exact absurd (Option.some.inj ho).symm hne
    · exact .inl ho
  · cases key with
    | type t => cases ho
    | alias_ s => exact absurd (Option.some.inj ho).symm hne

/-- The rule for records: the record that is walked represents its identity, in the progress in which it
stands in its slot and ever after. -/
theorem Yields.expanding (hagain : ∀ id r, r.registry.get? key = some id → post r (again id))
    (hgrows : ∀ id, Grows (first id))
    (hfirst : ∀ {o p id}, Consistent host settings o p → o id → p.registry.get? key = some id →
      (∀ other, p.registry.get? other = some id → other = key) →
      YieldsFrom host settings (key.sharable id) o p (first id) fun r x =>
        x.1.id = id ∧ RepresentsRecord host settings r key x.1 ∧
          (r.registry.get? key = some id → r.table.get? id = some x.1 → post r x.2)) :
    Yields host settings (Walk.expanding key again first) post := by
  refine ⟨expanding_grows hgrows, ?_⟩
  intro o p hp
  unfold YieldsFrom
  cases hk : p.registry.get? key with
  | some id =>
    rw [expanding_of_some hk]
    intro _
    refine ⟨hp, .refl p, .refl p, ?_⟩
    intro r hr
    exact hagain id r (hr.ids hk)
  | none =>
    rw [expanding_of_none hk]
    have hissued : p.registry.issued < (p.open_ key).registry.issued := by
      rw [Progress.open_, Registry.issued_reserve_of_none hk]
      exact Nat.lt_succ_self _
    have hself : (p.open_ key).registry.get? key = some p.registry.next := by
      rw [Progress.open_, Registry.get?_reserve_of_none hk, if_pos rfl]
    have hyields := fun hb => hfirst (hp.open_ hk hb) (.inr rfl) hself (only_open hp.numbered hk hb)
    unfold YieldsFrom at hyields
    cases hr : first p.registry.next (p.open_ key) with
    | error e q =>
      -- the record stays under construction, with those that the walk of it has begun
      intro hq
      have h := hyields (Nat.lt_of_lt_of_le hissued (Nat.le_trans ((hgrows _).error hr).issued hq))
      rw [hr] at h
      obtain ⟨o', ho', hc⟩ := h hq
      exact ⟨o', fun id hid => ho' id (.inl hid), hc⟩
    | ok x q =>
      obtain ⟨record, a⟩ := x
      have hgrow := (hgrows _).ok hr
      intro hq
      have hb : p.registry.issued < 2 ^ 32 := Nat.lt_of_lt_of_le hissued (Nat.le_trans hgrow.issued hq)
      have h := hyields hb
      rw [hr] at h
      obtain ⟨hc, -, hapart, hpost⟩ := h hq
      have hid : record.id = p.registry.next := (hpost q (.refl q)).1
      have hnext : ¬o p.registry.next := by
        intro ho
        have hslot := hp.slot?_next hb
        rw [hp.empty ho] at hslot
        cases hslot
      have hlater : ∀ r, (q.close record).Extends r → q.Extends r := fun _ => (Progress.Extends.close q record).trans
      refine ⟨?_, ((Progress.Extends.open_ p key).trans hgrow).trans (.close q record), apart_open hk hb hapart, ?_⟩
      · rw [← hid] at hc hapart hself hnext
        -- whoever has got the id meanwhile is represented as well
        apply hc.close hnext
        intro other hother r hr
        refine represents_shared hc.numbered (hlater r hr) hapart ?_ ?_ (hgrow.ids hself) (hpost r (hlater r hr)).2.1
          hother
        · rw [hid, Registry.toNat_next hb]
          exact hissued
        · rw [hid]
          exact only_open hp.numbered hk hb
      · intro r hr
        refine (hpost r (hlater r hr)).2.2 ((hlater r hr).ids (hgrow.ids hself)) ?_
        rw [← hid] at hc ⊢
        exact hr.records (hc.get?_close (.inr rfl))

end Expanding

end Walk

end TypeBundle
