import TypeBundle.Proofs.Pass.Termination
import TypeBundle.Proofs.Snapshot.Handle
import TypeBundle.Proofs.Walk.Mirror
/-!
# The depth of a snapshot is enough

A pass that is not cut off at some depth is not cut off at the depth that is computed from the snapshot, also
where a type is inside itself: every greater depth gives the same answer (`answer_of_depth_le`).

A walk that comes back to a type before it has started another identity never ends. So on the way down to an
end all types differ until an identity is started; `ended` counts those that can still follow.
-/

namespace TypeBundle

namespace Walk

variable {α : Type}

/-- The walk is cut off for the depth. -/
def CutOff (w : Walk α) (p : Progress) : Prop := ∃ q, w p = .error .tooDeep q

theorem Below.cutOff {w w' : Walk α} (h : Below w w') {p : Progress} (hcut : CutOff w' p) : CutOff w p := by
  rcases h p with hw | hw
  · exact hw
  · obtain ⟨q, hq⟩ := hcut
    exact ⟨q, hw ▸ hq⟩

namespace Mirrors

variable {lax : Prop} {R : Progress → Progress → Prop} {w w' : Walk α} {p p' : Progress}

/-- Of two walks in step the second is cut off only where the first is. -/
theorem cutOff (h : Mirrors lax R w w') (hp : R p p') (hcut : CutOff w' p') : CutOff w p := by
  obtain ⟨q', hq'⟩ := hcut
  have h := h p p' hp
  rw [hq'] at h
  generalize hr : w p = r at h
  cases h with
  | @error e _ q _ he =>
    cases e with
    | tooDeep => exact ⟨q, hr⟩
    | failed failure => cases he
  | spared => exact ⟨_, hr⟩

/-- In strict step it is cut off exactly there. -/
theorem cutOff_iff (h : Mirrors False R w w') (hp : R p p') : CutOff w' p' ↔ CutOff w p := by
  refine ⟨h.cutOff hp, fun hcut => ?_⟩
  obtain ⟨q, hq⟩ := hcut
  have h := h p p' hp
  rw [hq] at h
  generalize hr : w' p' = r at h
  cases h with
  | @error _ e' _ q' he =>
    cases e' with
    | tooDeep => exact ⟨q', hr⟩
    | failed failure => cases he
  | spared hlax => exact hlax.elim

end Mirrors

section Resolve

variable {host : Host} {settings : Settings} {t : TypeId} {p : Progress} {depth depth' : Nat}

theorem not_cutOff_of_le (h : depth ≤ depth') (hcut : ¬CutOff (resolve host settings depth t) p) :
    ¬CutOff (resolve host settings depth' t) p :=
  mt (resolve_mono h t).cutOff hcut

/-- Two depths at which a walk is not cut off give the same. -/
theorem resolve_eq_of_not_cutOff (h : ¬CutOff (resolve host settings depth t) p)
    (h' : ¬CutOff (resolve host settings depth' t) p) :
    resolve host settings depth' t p = resolve host settings depth t p := by
  rcases Nat.le_total depth depth' with hle | hle
  · exact (resolve_mono hle t p).resolve_left h
  · exact ((resolve_mono hle t p).resolve_left h').symm

end Resolve

end Walk

namespace Snapshot

variable {s : Snapshot} {l : Loaded}

/-- A loaded snapshot is the same host under its own ids. -/
theorem carries_id (h : s.load = .ok l) : Renaming.id.Carries l.Knows l.host l.host where
  type _ _ := (HostType.rename_id _).symm
  symbol _ _ := (HostSymbol.rename_id _).symm
  signature _ _ := (HostSignature.rename_id _).symm
  ofType _ _ := knows_typeMentions h _
  ofSymbol _ _ := knows_symbolMentions h _
  ofSignature _ := knows_signatureMentions h
  types _ _ _ _ := id
  symbols _ _ _ _ := id

namespace Loaded

/-! ## Walks from where other walks have ended -/

theorem mem_identities (h : s.load = .ok l) {key : Identity} (hkey : l.Knows key.mention) : key ∈ l.identities := by
  cases key with
  | type t => exact type_mem_identities h hkey
  | alias_ x => exact alias_mem_identities h hkey

/-- Since the other progress no identity has been started, or there are fewer to start. -/
def Since (l : Loaded) (o p : Progress) : Prop :=
  p.registry = o.registry ∨ l.unstarted p.registry < l.unstarted o.registry

theorem Since.le {o p : Progress} (h : l.Since o p) : l.unstarted p.registry ≤ l.unstarted o.registry := by
  rcases h with h | h
  · rw [h]
  · exact h.le

theorem Since.of_lt {o p q : Progress} (h : l.Since o p) (hlt : l.unstarted q.registry < l.unstarted p.registry) :
    l.Since o q := .inr (hlt.trans_le h.le)

theorem tracks_since (h : s.load = .ok l) (o : Progress) :
    Walk.Tracks .id l.Knows fun p p' => p' = p ∧ l.Since o p := by
  constructor
  case get? =>
    rintro _ p ⟨rfl, -⟩ key -
    rw [Renaming.identity_id]
  case next =>
    rintro _ p ⟨rfl, -⟩
    rfl
  case reserve =>
    rintro _ p ⟨rfl, hp⟩ key hkey hk
    rw [Renaming.identity_id]
    exact ⟨rfl, hp.of_lt (unstarted_reserve_lt (mem_identities h hkey) hk)⟩
  case begin_ =>
    rintro _ p ⟨rfl, hp⟩ id
    exact ⟨rfl, hp⟩
  case close =>
    rintro _ p ⟨rfl, hp⟩ record
    exact ⟨rfl, hp⟩
  case share =>
    rintro _ p ⟨rfl, hp⟩ key hkey hk id
    rw [Renaming.identity_id]
    exact ⟨rfl, hp.of_lt (unstarted_bind_lt (mem_identities h hkey) hk id)⟩

theorem tracks_sameRegistry (l : Loaded) : Walk.Tracks .id l.Knows fun p p' => p'.registry = p.registry := by
  constructor <;> intro p p' hp
  case get? =>
    intro key _
    rw [Renaming.identity_id, hp]
  case next => rw [hp]
  case reserve =>
    intro key _ _
    simp only [Renaming.identity_id, hp]
  case begin_ => exact fun _ => hp
  case close => exact fun _ => hp
  case share =>
    intro key _ _ id
    simp only [Progress.share, Renaming.identity_id, hp]

/-! ## Types that end -/

section Ended

open Classical

variable (l) in
/-- The types whose walks are not cut off at a depth. -/
noncomputable def ended (settings : Settings) (depth : Nat) (p : Progress) : Finset TypeId :=
  (List.toFinset (l.snapshot.types.map (·.id))).filter fun t => ¬Walk.CutOff (Walk.resolve l.host settings depth t) p

variable {settings : Settings} {depth : Nat} {p : Progress}

theorem mem_ended (h : s.load = .ok l) {t : TypeId} (ht : l.Knows (.type t)) :
    t ∈ l.ended settings depth p ↔ ¬Walk.CutOff (Walk.resolve l.host settings depth t) p := by
  obtain ⟨rfl, -⟩ := load_spec h
  simp only [ended, Finset.mem_filter, List.mem_toFinset, (knows_type h t).1 ht, true_and]

theorem ended_card_le : (l.ended settings depth p).card ≤ l.snapshot.types.length := by
  refine (Finset.card_filter_le _ _).trans ((List.toFinset_card_le _).trans ?_)
  simp

theorem ended_subset : l.ended settings depth p ⊆ l.ended settings (depth + 1) p :=
  Finset.monotone_filter_right _ fun _ _ => Walk.not_cutOff_of_le (Nat.le_succ depth)

/-- Which types end depends on what has been started only. -/
theorem ended_congr (h : s.load = .ok l) {q : Progress} (hq : q.registry = p.registry) :
    l.ended settings depth q = l.ended settings depth p := by
  obtain ⟨rfl, -⟩ := load_spec h
  refine Finset.filter_congr fun t ht => not_congr ?_
  have ht : l.Knows (.type t) := (knows_type h t).2 (List.mem_toFinset.1 ht)
  exact (Walk.resolve_mirrors (carries_id h) (tracks_sameRegistry l) depth t ht).cutOff_iff hq

/-- A type that ends only one level further is one more. -/
theorem ended_card_lt (h : s.load = .ok l) {t : TypeId} (ht : l.Knows (.type t))
    (hcut : Walk.CutOff (Walk.resolve l.host settings depth t) p)
    (hend : ¬Walk.CutOff (Walk.resolve l.host settings (depth + 1) t) p) :
    (l.ended settings depth p).card < (l.ended settings (depth + 1) p).card := by
  refine Finset.card_lt_card ((Finset.ssubset_iff_of_subset ended_subset).2 ⟨t, ?_, ?_⟩)
  · exact (mem_ended h ht).2 hend
  · exact fun hmem => (mem_ended h ht).1 hmem hcut

end Ended

/-! ## Walks that end -/

variable {settings : Settings} {depth : Nat} {p : Progress}

/-- A depth at which every type ends that ends at a given one. -/
noncomputable def enough (l : Loaded) (settings : Settings) (depth : Nat) (p : Progress) : Nat :=
  l.unstarted p.registry * (l.snapshot.types.length + 1) + (l.ended settings depth p).card

theorem enough_lt_of_lt {o : Progress} (hlt : l.unstarted p.registry < l.unstarted o.registry) :
    l.enough settings depth p < l.unstarted o.registry * (l.snapshot.types.length + 1) := by
  have hmul := Nat.mul_le_mul_right (l.snapshot.types.length + 1) hlt
  have hcard : (l.ended settings depth p).card ≤ l.snapshot.types.length := ended_card_le
  rw [Nat.succ_mul] at hmul
  unfold enough
  omega

/-- Where a type ends only one level further, that level is enough for whatever can follow. -/
theorem enough_lt_of_since (h : s.load = .ok l) {t : TypeId} (ht : l.Knows (.type t))
    (hcut : Walk.CutOff (Walk.resolve l.host settings depth t) p)
    (hend : ¬Walk.CutOff (Walk.resolve l.host settings (depth + 1) t) p) {q : Progress} (hq : l.Since p q) :
    l.enough settings depth q < l.enough settings (depth + 1) p := by
  have hcard := ended_card_lt h ht hcut hend
  rcases hq with hq | hq
  · unfold enough
    rw [ended_congr h hq, hq]
    omega
  · have hlt : l.enough settings depth q < _ := enough_lt_of_lt hq
    unfold enough at hlt ⊢
    omega

/-- Walks at two depths are in step if the second is not cut off where the first is not. -/
theorem mirrors_of_not_cutOff (h : s.load = .ok l) {o : Progress} {d d' : Nat} {t : TypeId} (ht : l.Knows (.type t))
    (hcut : ∀ p, l.Since o p → ¬Walk.CutOff (Walk.resolve l.host settings d t) p →
      ¬Walk.CutOff (Walk.resolve l.host settings d' t) p) :
    Walk.Mirrors True (fun p p' => p' = p ∧ l.Since o p) (Walk.resolve l.host settings d t)
      (Walk.resolve l.host settings d' t) := by
  rintro _ p ⟨rfl, hp⟩
  by_cases hend : Walk.CutOff (Walk.resolve l.host settings d t) p
  · obtain ⟨q, hq⟩ := hend
    rw [hq]
    exact .spared trivial
  · rw [Walk.resolve_eq_of_not_cutOff hend (hcut p hp hend)]
    -- the walk is in step with itself
    have hself : Walk.Mirrors True _ (Walk.resolve l.host settings d t) (Walk.resolve l.host settings d t) :=
      Walk.resolve_mirrors (carries_id h) (tracks_since h o) d t ht
    exact hself p p ⟨rfl, hp⟩

theorem not_cutOff_enough (h : s.load = .ok l) (settings : Settings) (depth : Nat) :
    ∀ {t : TypeId} {p : Progress}, l.Knows (.type t) → ¬Walk.CutOff (Walk.resolve l.host settings depth t) p →
      ∀ {d : Nat}, l.enough settings depth p ≤ d → ¬Walk.CutOff (Walk.resolve l.host settings d t) p := by
  induction depth with
  | zero =>
    intro t p _ hend
    exact absurd ⟨p, rfl⟩ hend
  | succ depth ih =>
    intro t p ht hend d hd
    by_cases hcut : Walk.CutOff (Walk.resolve l.host settings depth t) p
    · have hinside : ∀ q, l.Since p q → l.enough settings depth q < d := fun q hq =>
        (enough_lt_of_since h ht hcut hend hq).trans_le hd
      cases d with
      | zero => exact absurd (hinside p (.inl rfl)) (Nat.not_lt_zero _)
      | succ d =>
        have hres : ∀ c, l.Knows (.type c) → Walk.Mirrors True (fun q q' => q' = q ∧ l.Since p q)
            (Walk.resolve l.host settings depth c) (Walk.resolve l.host settings d (Renaming.id.type c)) :=
          fun c hc => mirrors_of_not_cutOff h hc fun q hq hend => ih hc hend (Nat.le_of_lt_succ (hinside q hq))
        exact mt ((Walk.step_mirrors (carries_id h) (tracks_since h p) hres ht).cutOff ⟨rfl, .inl rfl⟩) hend
    · refine ih ht hcut (le_trans ?_ hd)
      exact Nat.add_le_add_left (Finset.card_le_card ended_subset) _

theorem enough_le_depth (p : Progress) : l.enough settings depth p ≤ l.depth := by
  have hmul := Nat.mul_le_mul_right (l.snapshot.types.length + 1) (l.unstarted_le p.registry)
  have hcard : (l.ended settings depth p).card ≤ l.snapshot.types.length := ended_card_le
  unfold enough Loaded.depth
  rw [Nat.succ_mul]
  omega

end Loaded

/-! ## Passes that end -/

theorem knows_global (h : s.load = .ok l) : l.Knows (.symbol l.global) := by
  obtain ⟨x, hx, hhas⟩ := (load_iff_wellFormed.1 ⟨l, h⟩).global
  obtain rfl : x = l.global := Option.some.inj (hx.symm.trans (global_of_load h))
  exact (knows_iff_has h _).2 hhas

theorem knows_ambientModule (h : s.load = .ok l) {x : SymbolId} (hx : x ∈ l.snapshot.ambientModules) :
    l.Knows (.symbol x) := by
  obtain ⟨rfl, -⟩ := load_spec h
  exact (knows_iff_has h _).2 ((load_iff_wellFormed.1 ⟨l, h⟩).ambientModules x hx)

/-- No depth greater than that of the snapshot changes the answer of a pass. -/
theorem answer_of_depth_le (h : s.load = .ok l) (settings : Settings) {depth : Nat} (hd : l.depth ≤ depth) :
    Walk.answer (Walk.bundle l.host settings depth l.global l.snapshot.ambientModules) = l.bundle settings := by
  have hbelow : Walk.Below (Walk.bundle l.host settings l.depth l.global l.snapshot.ambientModules) _ :=
    Walk.bundle_mono hd l.global l.snapshot.ambientModules
  rcases hbelow .start with ⟨q, hq⟩ | heq
  · -- a pass that is cut off at the depth of the snapshot is cut off further down
    have hres : ∀ t, l.Knows (.type t) → Walk.Mirrors True (fun p p' => p' = p ∧ l.Since .start p)
        (Walk.resolve l.host settings depth t) (Walk.resolve l.host settings l.depth (Renaming.id.type t)) :=
      fun t ht => Loaded.mirrors_of_not_cutOff h ht fun p _ hend =>
        Loaded.not_cutOff_enough h settings depth ht hend (Loaded.enough_le_depth p)
    have hbundle := Walk.bundle_mirrors (carries_id h) hres (fun _ _ hp => hp.1 ▸ rfl) (knows_global h)
      fun x hx => knows_ambientModule h hx
    obtain ⟨q', hq'⟩ : Walk.CutOff (Walk.bundle l.host settings depth l.global l.snapshot.ambientModules) .start := by
      refine hbundle.cutOff ⟨rfl, .inl rfl⟩ ⟨q, ?_⟩
      simpa [Renaming.id] using hq
    simp only [Loaded.bundle, Loaded.bundleOf, Walk.answer, Walk.runFrom, EStateM.run, hq, hq']
  · simp only [Loaded.bundle, Loaded.bundleOf, Walk.answer, Walk.runFrom, EStateM.run, heq]

end Snapshot

end TypeBundle
