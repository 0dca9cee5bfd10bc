import Mathlib.Data.Finset.Card
import Mathlib.Logic.Relation
import TypeBundle.Proofs.Pass.Registry
import TypeBundle.Proofs.Snapshot.Loading
import TypeBundle.Proofs.Walk.Depth
import TypeBundle.Proofs.Walk.Keeps
/-!
# A pass comes to an end

A walk goes down either by starting an identity, and there are only so many of them, or to a part of a
type. If no type is inside itself, a chain of parts is no longer than there are types; so the depth
that is computed from a snapshot is enough, and more depth changes nothing (`bundle_terminates`).

A walk that has `u` identities left to start and is at a type of height `h` goes at most
`u * (n + 1) + h + 1` types deep, where `n` is the number of types.
-/

namespace TypeBundle

/-- The one type is inside the other, and a walk goes to it without starting an identity. -/
def Host.Inside (host : Host) (t c : TypeId) : Prop := c ∈ (host.type t).writtenParts

/-- No type is inside itself. -/
def Host.Acyclic (host : Host) : Prop := ∀ t, ¬Relation.TransGen host.Inside t t

namespace Snapshot

variable {s : Snapshot} {l : Loaded}

namespace Loaded

/-! ## What is left to start -/

/-- Everything in a loaded snapshot that an id can be handed out for. -/
def identities (l : Loaded) : Finset Identity :=
  List.toFinset ((l.snapshot.types.map (·.id)).map .type ++ (l.snapshot.symbols.map (·.id)).map .alias_)

/-- How many identities have no id yet. -/
def unstarted (l : Loaded) (r : Registry) : Nat := (l.identities.filter fun key => r.get? key = none).card

theorem unstarted_le (l : Loaded) (r : Registry) :
    l.unstarted r ≤ l.snapshot.types.length + l.snapshot.symbols.length := by
  refine (Finset.card_filter_le _ _).trans ((List.toFinset_card_le _).trans ?_)
  simp

theorem type_mem_identities (h : s.load = .ok l) {t : TypeId} (ht : l.Knows (.type t)) :
    .type t ∈ l.identities := by
  obtain ⟨rfl, -⟩ := load_spec h
  simpa [identities] using (knows_type h t).1 ht

theorem alias_mem_identities (h : s.load = .ok l) {x : SymbolId} (hx : l.Knows (.symbol x)) :
    .alias_ x ∈ l.identities := by
  obtain ⟨rfl, -⟩ := load_spec h
  simpa [identities] using (knows_symbol h x).1 hx

theorem unstarted_reserve (l : Loaded) (r : Registry) (key : Identity) :
    l.unstarted (r.reserve key).2 ≤ l.unstarted r :=
  Finset.card_le_card (Finset.monotone_filter_right _ fun _ _ => Registry.get?_of_reserve_none)

theorem unstarted_bind (l : Loaded) (r : Registry) (key : Identity) (id : BundleId) :
    l.unstarted (r.bind key id) ≤ l.unstarted r :=
  Finset.card_le_card (Finset.monotone_filter_right _ fun _ _ => Registry.get?_of_bind_none)

/-- An identity that gets an id is one less to start. -/
theorem unstarted_lt {r r' : Registry} (hstay : ∀ other, r'.get? other = none → r.get? other = none) {key : Identity}
    (hkey : key ∈ l.identities) (hr : r.get? key = none) (hr' : r'.get? key ≠ none) :
    l.unstarted r' < l.unstarted r := by
  refine Finset.card_lt_card ((Finset.ssubset_iff_of_subset ?_).2 ⟨key, ?_, ?_⟩)
  · exact Finset.monotone_filter_right _ fun other _ => hstay other
  · simp [hkey, hr]
  · simp [hr']

theorem unstarted_reserve_lt {r : Registry} {key : Identity} (hkey : key ∈ l.identities) (hr : r.get? key = none) :
    l.unstarted (r.reserve key).2 < l.unstarted r :=
  unstarted_lt (fun _ => Registry.get?_of_reserve_none) hkey hr (by simp [Registry.get?_reserve_self])

theorem unstarted_bind_lt {r : Registry} {key : Identity} (hkey : key ∈ l.identities) (hr : r.get? key = none)
    (id : BundleId) : l.unstarted (r.bind key id) < l.unstarted r :=
  unstarted_lt (fun _ => Registry.get?_of_bind_none) hkey hr (by simp [Registry.get?_bind])

/-! ## Heights -/

section Heights

open Classical

/-- How many types are inside a type. -/
noncomputable def height (l : Loaded) (t : TypeId) : Nat :=
  ((List.toFinset (l.snapshot.types.map (·.id))).filter (Relation.TransGen l.host.Inside t)).card

theorem height_le (l : Loaded) (t : TypeId) : l.height t ≤ l.snapshot.types.length := by
  refine (Finset.card_filter_le _ _).trans ((List.toFinset_card_le _).trans ?_)
  simp

theorem height_lt (h : s.load = .ok l) (hac : l.host.Acyclic) {t c : TypeId} (hc : l.host.Inside t c)
    (hk : l.Knows (.type c)) : l.height c < l.height t := by
  obtain ⟨rfl, -⟩ := load_spec h
  -- what is inside the part is inside the whole; the part is not inside itself
  refine Finset.card_lt_card (Finset.ssubset_iff_of_subset ?_ |>.2 ⟨c, ?_, ?_⟩)
  · intro a ha
    simp only [Finset.mem_filter] at ha ⊢
    exact ⟨ha.1, .head hc ha.2⟩
  · simp only [Finset.mem_filter, List.mem_toFinset]
    exact ⟨(knows_type h c).1 hk, .single hc⟩
  · simp only [Finset.mem_filter, not_and]
    intro _
    exact hac c

end Heights

/-! ## Walks come to an end -/

variable (l) in
/-- Fewer identities than this have no id yet. -/
def Under (u : Nat) (p : Progress) : Prop := l.unstarted p.registry < u

/-- The walk does not stop for the depth, and leaves no more identities without an id than there were. -/
abbrev Ends {α : Type} (l : Loaded) (u : Nat) (w : Walk α) : Prop := Walk.Keeps (l.Under u) (· ≠ .tooDeep) w

theorem ends_zero {α : Type} (w : Walk α) : l.Ends 0 w := fun _ hp => absurd hp (Nat.not_lt_zero _)

theorem ends_reserve (u : Nat) (key : Identity) : l.Ends u (Walk.reserve key) := by
  intro p hp
  refine (?_ : l.Under u { p with registry := (p.registry.reserve key).2 })
  exact (l.unstarted_reserve p.registry key).trans_lt hp

/-- An identity is started on the way: what comes after may start one less. -/
theorem under_open {u v : Nat} (hv : v ≤ u + 1) {p : Progress} {key : Identity} (hkey : key ∈ l.identities)
    (hp : l.Under v p) (hk : p.registry.get? key = none) : l.Under u (p.open_ key) :=
  Nat.lt_of_lt_of_le (unstarted_reserve_lt hkey hk) (Nat.le_of_lt_succ (Nat.lt_of_lt_of_le hp hv))

theorem Under.mono {u v : Nat} (h : u ≤ v) {p : Progress} (hp : l.Under u p) : l.Under v p :=
  Nat.lt_of_lt_of_le hp h

section Rules

variable {settings : Settings} {resolve : TypeId → Walk TypeExpr} {u v : Nat}

theorem ends_shape (h : s.load = .ok l) (hres : ∀ c, l.Knows (.type c) → l.Ends u (resolve c)) (t : TypeId)
    (owner? : Option SymbolId) : l.Ends u (Walk.shape l.host settings resolve t owner?) := by
  apply Walk.shape_keeps
  · intro f _
    simp
  · intro g _ x _
    exact ends_reserve u (.type x)
  · intro c hc
    exact hres c (knows_shapeParts h hc)

theorem ends_declaration (h : s.load = .ok l) (huv : u ≤ v) (hvu : v ≤ u + 1)
    (hres : ∀ c, l.Knows (.type c) → l.Ends u (resolve c)) {t : TypeId} (ht : l.Knows (.type t)) :
    l.Ends v (Walk.declaration l.host settings resolve t) := by
  apply Walk.declaration_keeps
  · intro p
    exact under_open hvu (type_mem_identities h ht)
  · intro p record
    exact Under.mono huv
  · intro p
    exact Under.mono huv
  · intro x _
    exact ends_reserve u (.type x)
  · intro c hc
    exact hres c (knows_constraints h hc)
  · exact ends_shape h hres _ _

theorem ends_objectLiteral (h : s.load = .ok l) (huv : u ≤ v) (hvu : v ≤ u + 1)
    (hres : ∀ c, l.Knows (.type c) → l.Ends u (resolve c)) {t : TypeId} (ht : l.Knows (.type t)) :
    l.Ends v (Walk.objectLiteral l.host settings resolve t) := by
  apply Walk.objectLiteral_keeps
  · intro p
    exact under_open hvu (type_mem_identities h ht)
  · intro p record
    exact Under.mono huv
  · intro p
    exact Under.mono huv
  · exact ends_shape h hres _ _

theorem ends_structural (h : s.load = .ok l) (huv : u ≤ v) (hvu : v ≤ u + 1)
    (hres : ∀ c, l.Knows (.type c) → l.Ends u (resolve c)) {t : TypeId} (ht : l.Knows (.type t))
    (hpart : ∀ c ∈ (l.host.type t).parts, l.Ends v (resolve c)) :
    l.Ends v (Walk.structural l.host settings resolve t) := by
  apply Walk.structural_keeps
  · intro f _
    simp
  · exact hpart
  · intro _
    exact ends_reserve v (.type t)
  · intro w hk hw htuple
    have hleads : l.host.Leads settings (.bare t) (.declared w) := .target hk hw htuple
    exact ends_declaration h huv hvu hres (known_of_leads h hleads ht)
  · intro _
    exact ends_declaration h huv hvu hres ht
  · intro _
    exact ends_objectLiteral h huv hvu hres ht

theorem ends_aliasRecord (h : s.load = .ok l) (hres : ∀ c, l.Knows (.type c) → l.Ends u (resolve c)) {x : SymbolId}
    (record : BundleId) : l.Ends u (Walk.aliasRecord l.host settings resolve record x) := by
  apply Walk.aliasRecord_keeps
  · intro f _
    simp
  · intro t _
    exact ends_reserve u (.type t)
  · intro c hc
    exact hres c (knows_constraints h hc)
  · intro d hd
    have hk : l.Knows (.type d) := knows_symbolMentions h x _ (by simp [symbolMentions, hd])
    apply Walk.aliasBody_keeps
    · intro _
      exact hres d hk
    · intro _ _ p
      exact (l.unstarted_bind _ _ _).trans_lt
    · intro _ _
      exact ends_shape h hres _ _
    · intro _ _
      exact ends_structural h le_rfl (Nat.le_succ u) hres hk fun c hc => hres c (knows_parts h hc)

/-- The step of the induction: every type may be walked after another identity is started, and the
parts of this type even before. -/
theorem ends_step (h : s.load = .ok l) (hres : ∀ c, l.Knows (.type c) → l.Ends u (resolve c)) {t : TypeId}
    (ht : l.Knows (.type t)) (hpart : ∀ c, l.host.Inside t c → l.Ends (u + 1) (resolve c)) :
    l.Ends (u + 1) (Walk.step l.host settings resolve t) := by
  -- under an alias, after its identity has been started, one less is left to start
  apply Walk.step_keeps (J := l.Under u)
  · intro x hx p
    exact under_open le_rfl (alias_mem_identities h (knows_typeMentions h t _ (by simp [typeMentions, hx])))
  · intro p record
    exact Under.mono (Nat.le_succ u)
  · intro p
    exact Under.mono (Nat.le_succ u)
  · intro x _ record
    exact ends_aliasRecord h hres record
  · intro x hx a ha
    apply hpart
    simpa [Host.Inside, HostType.writtenParts, hx] using ha
  · intro hx
    refine ends_structural h (Nat.le_succ u) le_rfl hres ht fun c hc => hpart c ?_
    simpa [Host.Inside, HostType.writtenParts, hx] using hc

end Rules

/-- Types that may be gone down while `u` identities are left to start, from a type of height `h`. -/
def depthFor (l : Loaded) (u h : Nat) : Nat := u * (l.snapshot.types.length + 1) + h + 1

theorem ends_resolve (h : s.load = .ok l) (hac : l.host.Acyclic) (settings : Settings) (depth : Nat) :
    ∀ (u : Nat) (t : TypeId), l.Knows (.type t) → l.depthFor u (l.height t) ≤ depth →
      l.Ends (u + 1) (Walk.resolve l.host settings depth t) := by
  induction depth with
  | zero =>
    intro u t _ hd
    exact absurd hd (by simp [depthFor])
  | succ depth ih =>
    intro u t ht hd
    apply ends_step h _ ht
    · intro c hc
      have hk : l.Knows (.type c) := by
        unfold Host.Inside HostType.writtenParts at hc
        split at hc
        · exact knows_of_type h (t := t) (by simp [typeMentions, hc])
        · exact knows_parts h hc
      refine ih u c hk ?_
      have hlt := height_lt h hac hc hk
      simp only [depthFor] at hd ⊢
      omega
    · intro c hc
      cases u with
      | zero => exact ends_zero _
      | succ u =>
        -- one less to start makes up for any height
        refine ih u c hc ?_
        have hle := l.height_le c
        simp only [depthFor, Nat.succ_mul] at hd ⊢
        omega

theorem ends_bundle (h : s.load = .ok l) (hac : l.host.Acyclic) (settings : Settings) (global : SymbolId)
    (modules : List SymbolId) :
    l.Ends (l.snapshot.types.length + l.snapshot.symbols.length + 1)
      (Walk.bundle l.host settings l.depth global modules) := by
  have root : ∀ missing x, l.Ends (l.snapshot.types.length + l.snapshot.symbols.length + 1)
      (Walk.root l.host settings l.depth missing x) := by
    intro missing x
    apply Walk.root_keeps
    · intro _
      simp
    · intro t ht
      refine ends_resolve h hac settings _ _ t (knows_type? h ht) ?_
      have hle := l.height_le t
      simp only [depthFor, depth, Nat.succ_mul]
      omega
  exact Walk.bundle_keeps (Walk.roots_keeps (root _ _) fun _ _ => root _ _) (Walk.freeze_keeps fun _ => by simp)

end Loaded

/-- A pass over a loaded snapshot in which no type is inside itself comes to an end, whatever its
roots: the depth computed from the snapshot is enough, and every greater one gives the same. -/
theorem bundle_terminates (h : s.load = .ok l) (hac : l.host.Acyclic) (settings : Settings) (global : SymbolId)
    (modules : List SymbolId) :
    ∃ outcome : Except Failure Bundle, l.bundleOf settings global modules = outcome.mapError .failed ∧
      ∀ depth, l.depth ≤ depth →
        Walk.answer (Walk.bundle l.host settings depth global modules) = outcome.mapError .failed := by
  have hends := Loaded.ends_bundle h hac settings global modules .start (Nat.lt_succ_of_le (l.unstarted_le _))
  have hmono : ∀ depth, l.depth ≤ depth →
      Walk.answer (Walk.bundle l.host settings depth global modules) = l.bundleOf settings global modules := by
    intro depth hd
    have hbelow : Walk.Below (Walk.bundle l.host settings l.depth global modules) _ :=
      Walk.bundle_mono hd global modules
    rcases hbelow .start with ⟨q, hq⟩ | he
    · rw [hq] at hends
      exact absurd rfl hends.2
    · simp only [Walk.answer, Walk.runFrom, EStateM.run, he, Loaded.bundleOf]
  have hanswer : ∃ outcome : Except Failure Bundle,
      l.bundleOf settings global modules = outcome.mapError .failed := by
    simp only [Loaded.bundleOf, Walk.answer, Walk.runFrom, EStateM.run]
    cases hr : Walk.bundle l.host settings l.depth global modules .start with
    | ok b q => exact ⟨.ok b, rfl⟩
    | error e q =>
      rw [hr] at hends
      cases e with
      | tooDeep => exact absurd rfl hends.2
      | failed f => exact ⟨.error f, rfl⟩
  obtain ⟨outcome, ho⟩ := hanswer
  exact ⟨outcome, ho, fun depth hd => (hmono depth hd).trans ho⟩

/-! ## Checking a snapshot -/

/-- The place of a type when type parameters come first and others follow by their ids. -/
def Loaded.rank (l : Loaded) (t : TypeId) : Nat :=
  if (l.host.type t).flags.contains TypeFlags.typeParameter then 0 else t.val.toNat + 1

/-- Whether every type has a greater rank than those inside it. -/
def Loaded.isRanked (l : Loaded) : Bool :=
  l.snapshot.types.all fun e => e.facts.writtenParts.all fun c => l.rank c < l.rank e.id

theorem acyclic_of_isRanked (h : s.load = .ok l) (hcheck : l.isRanked = true) : l.host.Acyclic := by
  obtain ⟨rfl, -⟩ := load_spec h
  simp only [Loaded.isRanked, List.all_eq_true, decide_eq_true_eq] at hcheck
  have hinside : ∀ t c, l.host.Inside t c → l.rank c < l.rank t := fun t =>
    forall_type (P := fun t a => ∀ c ∈ a.writtenParts, l.rank c < l.rank t) h
      (fun _ _ hc => absurd hc List.not_mem_nil) hcheck t
  have hlt : ∀ {t c}, Relation.TransGen l.host.Inside t c → l.rank c < l.rank t := by
    intro t c htc
    induction htc with
    | single hc => exact hinside _ _ hc
    | tail _ hc ih => exact (hinside _ _ hc).trans ih
  exact fun t ht => Nat.lt_irrefl _ (hlt ht)

/-- Aliases of a tuple, of a function and of a literal that contains itself. -/
theorem bundle_terminates_aliases : ∃ s l, Sample.aliases.snapshot? = some s ∧ s.load = .ok l ∧
    ∃ outcome : Except Failure Bundle, l.bundleOf default l.global [] = outcome.mapError .failed ∧
      ∀ depth, l.depth ≤ depth →
        Walk.answer (Walk.bundle l.host default depth l.global []) = outcome.mapError .failed := by
  obtain ⟨l, hl, hranked⟩ := (Option.any_eq_true _ _).1
    (by decide +kernel : Sample.aliases.loaded?.any (·.isRanked) = true)
  obtain ⟨s, hs, hload⟩ := Sample.load_of_loaded hl
  exact ⟨s, l, hs, hload, bundle_terminates hload (acyclic_of_isRanked hload hranked) default l.global []⟩

end Snapshot

end TypeBundle
