import TypeBundle.Proofs.Host.Regular
import TypeBundle.Proofs.Pass.Termination
/-!
# Where a pass can get to

What a pass can be led to from its roots, and what it may do there, read off the host alone: a pass over a
regular host starts only identities that are reached, hands out no more ids than there are types and symbols,
and fails only for what is wrong at a spot that is reached (`stays_resolve`).
-/

namespace TypeBundle

/-- The walk stops for the depth or for one of these failures. -/
def Stop.OnlyFor (failures : Failure → Prop) : Stop → Prop
  | .tooDeep => True
  | .failed f => failures f

namespace Host

variable (host : Host) (settings : Settings) (roots : List SymbolId)

/-- A pass over the roots can be led to the spot. -/
def Reaches (x : Spot) : Prop :=
  ∃ r ∈ roots, ∃ t, (host.symbol r).type? = some t ∧ Relation.ReflTransGen (host.Leads settings) (.written t) x

/-- The identity has a record when everything that is reached has been walked. -/
inductive GetsRecord : Identity → Prop
  | alias_ {s} : host.Reaches settings roots (.alias_ s) → GetsRecord (.alias_ s)
  | declared {t} : host.Reaches settings roots (.declared t) → GetsRecord (.type t)
  | literal {t} : host.Reaches settings roots (.bare t) → (host.type t).kind = .ok .anonymous → GetsRecord (.type t)

/-- A pass over the roots may give the identity an id. -/
inductive MayStart : Identity → Prop
  | record {key} : host.GetsRecord settings roots key → MayStart key
  | literal {s d} : host.Reaches settings roots (.shape d (some s)) → host.IsLiteralOf s d → MayStart (.type d)
  | parameter {t} : (host.type t).kind = .ok .typeParameter → MayStart (.type t)

/-- Something is wrong with the host for a pass: a root has no type, or there is a flaw where the pass can get to. -/
inductive Faulty (global : SymbolId) (modules : List SymbolId) : Failure → Prop
  | global : (host.symbol global).type? = none →
      Faulty global modules (.unexpected (.globalWithoutType (host.symbol global).name))
  | module_ {s} : s ∈ modules → (host.symbol s).type? = none →
      Faulty global modules (.unexpected (.moduleWithoutType (host.symbol s).name))
  | reached {x f} : host.Reaches settings (global :: modules) x → host.Flawed settings x f → Faulty global modules f

variable {host settings roots}

theorem Reaches.step {x y : Spot} (hx : host.Reaches settings roots x) (h : host.Leads settings x y) :
    host.Reaches settings roots y := by
  obtain ⟨r, hr, t, ht, hreach⟩ := hx
  exact ⟨r, hr, t, ht, hreach.tail h⟩

theorem Reaches.root {r : SymbolId} (hr : r ∈ roots) {t : TypeId} (ht : (host.symbol r).type? = some t) :
    host.Reaches settings roots (.written t) := ⟨r, hr, t, ht, .refl⟩

theorem Reaches.of_subset {others : List SymbolId} (hsub : roots ⊆ others) {x : Spot}
    (hx : host.Reaches settings roots x) : host.Reaches settings others x := by
  obtain ⟨r, hr, hreach⟩ := hx
  exact ⟨r, hsub hr, hreach⟩

theorem GetsRecord.of_subset {others : List SymbolId} (hsub : roots ⊆ others) {key : Identity}
    (hkey : host.GetsRecord settings roots key) : host.GetsRecord settings others key := by
  cases hkey with
  | alias_ hx => exact .alias_ (hx.of_subset hsub)
  | declared hx => exact .declared (hx.of_subset hsub)
  | literal hx hk => exact .literal (hx.of_subset hsub) hk

/-- Whether something is wrong for a pass depends on the set of its roots. -/
theorem not_faulty_iff {global : SymbolId} {modules : List SymbolId} :
    (∀ f, ¬host.Faulty settings global modules f) ↔ (∀ r ∈ global :: modules, (host.symbol r).type? ≠ none) ∧
      ∀ x, host.Reaches settings (global :: modules) x → ∀ f, ¬host.Flawed settings x f := by
  constructor
  · intro h
    constructor
    · intro r hr hnone
      rcases List.mem_cons.1 hr with rfl | hr
      · exact h _ (.global hnone)
      · exact h _ (.module_ hr hnone)
    · intro x hx f hf
      exact h f (.reached hx hf)
  · rintro ⟨htype, hflaw⟩ f hf
    cases hf with
    | global hnone => exact htype _ List.mem_cons_self hnone
    | module_ hs hnone => exact htype _ (List.mem_cons_of_mem _ hs) hnone
    | reached hx hf => exact hflaw _ hx _ hf

end Host

namespace Snapshot

variable {s : Snapshot} {l : Loaded} {settings : Settings} {roots : List SymbolId}

/-- What is reached has an entry. -/
theorem knows_of_reaches (h : s.load = .ok l) {x : Spot} (hx : l.host.Reaches settings roots x) : l.KnowsSpot x := by
  obtain ⟨r, -, t, ht, hreach⟩ := hx
  induction hreach with
  | refl => exact knows_type? h ht
  | tail _ hstep ih => exact known_of_leads h hstep ih

/-- A type of some kind has an entry. -/
theorem knows_of_kind (h : s.load = .ok l) {t : TypeId} {kind : Kind} (hk : (l.host.type t).kind = .ok kind) :
    l.Knows (.type t) := by
  refine forall_type (P := fun t a => a.kind = .ok kind → l.Knows (.type t)) h ?_ ?_ t hk
  · intro t hd
    cases hd
  · intro e he _
    exact (knows_type h e.id).2 (List.mem_map_of_mem he)

theorem mem_identities_of_mayStart (h : s.load = .ok l) {key : Identity} (hkey : l.host.MayStart settings roots key) :
    key ∈ l.identities := by
  cases hkey with
  | record hrecord =>
    cases hrecord with
    | alias_ hx => exact Loaded.alias_mem_identities h (knows_of_reaches h hx)
    | declared hx => exact Loaded.type_mem_identities h (knows_of_reaches h hx)
    | literal hx _ => exact Loaded.type_mem_identities h (knows_of_reaches h hx)
  | literal hx _ => exact Loaded.type_mem_identities h (knows_of_reaches h hx)
  | parameter hk => exact Loaded.type_mem_identities h (knows_of_kind h hk)

/-! ## The invariant -/

variable (l settings roots) in
/-- Only what is reached has been started, and no more ids have been handed out than things started. -/
structure Within (p : Progress) : Prop where
  started : ∀ {key id}, p.registry.get? key = some id → l.host.MayStart settings roots key
  issued : p.registry.issued + l.unstarted p.registry ≤ l.identities.card

namespace Within

variable {p : Progress} {key : Identity}

theorem start : Within l settings roots .start := by
  constructor
  · intro key id hkey
    cases key <;> simp [Progress.start, Registry.get?, Registry.empty] at hkey
  · simp only [Progress.start, Registry.empty, Nat.zero_add]
    exact Finset.card_filter_le _ _

theorem issued_le (hp : Within l settings roots p) :
    p.registry.issued ≤ l.snapshot.types.length + l.snapshot.symbols.length := by
  refine (Nat.le_add_right _ _).trans (hp.issued.trans ((List.toFinset_card_le _).trans ?_))
  simp

theorem reserve (h : s.load = .ok l) (hp : Within l settings roots p) (hkey : l.host.MayStart settings roots key) :
    Within l settings roots { p with registry := (p.registry.reserve key).2 } := by
  cases hk : p.registry.get? key with
  | some id =>
    rw [Registry.reserve_of_some hk]
    exact hp
  | none =>
    constructor
    · intro other id hother
      rw [Registry.get?_reserve_of_none hk] at hother
      split at hother
      · rename_i e
        exact e ▸ hkey
      · exact hp.started hother
    · -- one id more, one identity less to start
      have hlt := Loaded.unstarted_reserve_lt (mem_identities_of_mayStart h hkey) hk
      have hle := hp.issued
      simp only [Registry.issued_reserve_of_none hk]
      omega

theorem open_ (h : s.load = .ok l) (hp : Within l settings roots p) (hkey : l.host.MayStart settings roots key) :
    Within l settings roots (p.open_ key) := ⟨(hp.reserve h hkey).started, (hp.reserve h hkey).issued⟩

theorem share (hp : Within l settings roots p) (hkey : l.host.MayStart settings roots key) (id : BundleId) :
    Within l settings roots (p.share key id) := by
  constructor
  · intro other k hother
    rw [Progress.share, Registry.get?_bind] at hother
    split at hother
    · rename_i e
      exact e ▸ hkey
    · exact hp.started hother
  · rw [Progress.share, Registry.issued_bind]
    exact (Nat.add_le_add_left (l.unstarted_bind _ _ _) _).trans hp.issued

theorem close (hp : Within l settings roots p) (record : Record) : Within l settings roots (p.close record) :=
  ⟨hp.started, hp.issued⟩

end Within

/-! ## The rules for one type -/

variable (l settings roots) in
/-- The walk starts only what is reached, and stops only for what is wrong there. -/
abbrev Stays {α : Type} (w : Walk α) : Prop :=
  Walk.Keeps (Within l settings roots)
    (Stop.OnlyFor fun f => ∃ x, l.host.Reaches settings roots x ∧ l.host.Flawed settings x f) w

section Rules

variable (h : s.load = .ok l) (hr : l.host.Regular) {resolve : TypeId → Walk TypeExpr}
variable (hres : ∀ c, l.host.Reaches settings roots (.written c) → Stays l settings roots (resolve c))
include h

theorem stays_reserve {key : Identity} (hkey : l.host.MayStart settings roots key) :
    Stays l settings roots (Walk.reserve key) := by
  intro p hp
  exact hp.reserve h hkey

include hr

theorem stays_parameter {t : TypeId} (ht : l.host.InParameterList t) :
    Stays l settings roots (Walk.reserve (.type t)) :=
  stays_reserve h (.parameter (hr.parametersApart.kind_eq (.inl ht)))

include hres

theorem stays_shape {t : TypeId} {owner? : Option SymbolId} (hx : l.host.Reaches settings roots (.shape t owner?)) :
    Stays l settings roots (Walk.shape l.host settings resolve t owner?) := by
  apply Walk.shape_keeps
  · intro f hf
    exact ⟨_, hx, .shape hf⟩
  · intro g _ x hp
    exact stays_parameter h hr (.inr (.inr ⟨g, hp⟩))
  · intro c hc
    exact hres c (hx.step (.shapePart hc))

theorem stays_declaration {t : TypeId} (hx : l.host.Reaches settings roots (.declared t)) :
    Stays l settings roots (Walk.declaration l.host settings resolve t) := by
  apply Walk.declaration_keeps (J := Within l settings roots)
  · intro p hp _
    exact hp.open_ h (.record (.declared hx))
  · intro p record hp
    exact hp.close record
  · intro p hp
    exact hp
  · intro x hp
    exact stays_parameter h hr (.inl ⟨t, hp⟩)
  · intro c hc
    exact hres c (hx.step (.constraint hc))
  · exact stays_shape h hr hres (hx.step .declaredShape)

theorem stays_objectLiteral {t : TypeId} (hx : l.host.Reaches settings roots (.bare t))
    (hk : (l.host.type t).kind = .ok .anonymous) :
    Stays l settings roots (Walk.objectLiteral l.host settings resolve t) := by
  apply Walk.objectLiteral_keeps (J := Within l settings roots)
  · intro p hp _
    exact hp.open_ h (.record (.literal hx hk))
  · intro p record hp
    exact hp.close record
  · intro p hp
    exact hp
  · exact stays_shape h hr hres (hx.step (.literal hk))

theorem stays_structural {t : TypeId} (hx : l.host.Reaches settings roots (.bare t)) :
    Stays l settings roots (Walk.structural l.host settings resolve t) := by
  apply Walk.structural_keeps
  · intro f hf
    exact ⟨_, hx, .type hf⟩
  · intro c hc
    exact hres c (hx.step (.part hc))
  · intro hk
    exact stays_reserve h (.parameter hk)
  · intro u hk hu hn
    exact stays_declaration h hr hres (hx.step (.target hk hu hn))
  · intro hk
    exact stays_declaration h hr hres (hx.step (.nominal hk))
  · intro hk
    exact stays_objectLiteral h hr hres hx hk

theorem stays_aliasRecord {x : SymbolId} (hx : l.host.Reaches settings roots (.alias_ x)) (record : BundleId) :
    Stays l settings roots (Walk.aliasRecord l.host settings resolve record x) := by
  apply Walk.aliasRecord_keeps
  · intro f hf
    exact ⟨_, hx, .alias_ hf⟩
  · intro t hp
    exact stays_parameter h hr (.inr (.inl ⟨x, hp⟩))
  · intro c hc
    exact hres c (hx.step (.aliasConstraint hc))
  · intro d hd
    apply Walk.aliasBody_keeps
    · intro hn
      exact hres d (hx.step (.otherAlias hd hn))
    · intro hn hl p hp
      exact hp.share (.literal (hx.step (.aliasLiteral hd hn hl)) ⟨hd, hn, hl⟩) record
    · intro hn hl
      exact stays_shape h hr hres (hx.step (.aliasLiteral hd hn hl))
    · intro hn hk
      exact stays_structural h hr hres (hx.step (.aliasBody hd hn hk))

theorem stays_step {t : TypeId} (hx : l.host.Reaches settings roots (.written t)) :
    Stays l settings roots (Walk.step l.host settings resolve t) := by
  apply Walk.step_keeps (J := Within l settings roots)
  · intro x ha p hp _
    exact hp.open_ h (.record (.alias_ (hx.step (.alias_ ha))))
  · intro p record hp
    exact hp.close record
  · intro p hp
    exact hp
  · intro x ha record
    exact stays_aliasRecord h hr hres (hx.step (.alias_ ha)) record
  · intro x ha c hc
    exact hres c (hx.step (.aliasArgument ha hc))
  · intro ha
    exact stays_structural h hr hres (hx.step (.bare ha))

end Rules

theorem stays_resolve (h : s.load = .ok l) (hr : l.host.Regular) (depth : Nat) {t : TypeId}
    (hx : l.host.Reaches settings roots (.written t)) :
    Stays l settings roots (Walk.resolve l.host settings depth t) := by
  induction depth generalizing t with
  | zero =>
    intro p hp
    exact ⟨hp, trivial⟩
  | succ depth ih => exact stays_step h hr (fun _ => ih) hx

/-! ## Whole passes -/

/-- The roots are walked within what is reached from them, and only what is wrong there is a failure. -/
theorem roots_stays (h : s.load = .ok l) (hr : l.host.Regular) (settings : Settings) (depth : Nat) (global : SymbolId)
    (modules : List SymbolId) :
    Walk.Keeps (Within l settings (global :: modules)) (Stop.OnlyFor (l.host.Faulty settings global modules))
      (Walk.roots l.host settings depth global modules) := by
  have hres : ∀ r ∈ global :: modules, ∀ t, (l.host.symbol r).type? = some t →
      Walk.Keeps (Within l settings (global :: modules)) (Stop.OnlyFor (l.host.Faulty settings global modules))
        (Walk.resolve l.host settings depth t) := by
    intro r hmem t ht
    apply (stays_resolve h hr depth (.root hmem ht)).mono
    intro e he
    cases e with
    | tooDeep => trivial
    | failed f =>
      obtain ⟨x, hx, hf⟩ := he
      exact .reached hx hf
  apply Walk.roots_keeps
  · exact Walk.root_keeps .global (hres global List.mem_cons_self)
  · intro x hx
    exact Walk.root_keeps (.module_ hx) (hres x (List.mem_cons_of_mem _ hx))

end Snapshot

end TypeBundle
