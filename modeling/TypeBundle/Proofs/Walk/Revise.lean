import TypeBundle.Proofs.Host.Parts
import TypeBundle.Proofs.Walk.Unless
/-!
# What a type says of itself

A walk asks a type for its flags and its literal value only where it looks at the type by its own structure, and where
an alias asks whether it names an object literal. So a host that says something else of some types is walked in the
same way as long as no such type is looked at (`bundle_revise`).
-/

namespace TypeBundle

/-- The host with other flags and literal values. -/
def Host.revise (host : Host) (flags : TypeId → TypeFlags) (literal? : TypeId → Option Literal) : Host :=
  { host with type := fun t => { host.type t with flags := flags t, literal? := literal? t } }

/-- Whether the type is asked for its literal value. -/
def HostType.isLiteral (t : HostType) : Bool :=
  match t.kind with
  | .ok .booleanLiteral | .ok .stringLiteral | .ok .numberLiteral => true
  | _ => false

/-- The host says the same of a type under the other flags and value, where it is asked for them, or walks stop at the
type for one of these reasons. An alias is told the same of every type. -/
structure Host.Revises (host : Host) (E : Stop → Prop) (flags : TypeId → TypeFlags)
    (literal? : TypeId → Option Literal) : Prop where
  isObjectLiteral : ∀ t,
    Walk.isObjectLiteral ((host.revise flags literal?).type t) = Walk.isObjectLiteral (host.type t)
  type : ∀ t, (flags t = (host.type t).flags ∧ ((host.type t).isLiteral = true → literal? t = (host.type t).literal?)) ∨
    ∃ f, host.typeFlaw? t = some f ∧ E (.failed f)

namespace Walk

section Rules

variable {host : Host} {settings : Settings} {resolve : TypeId → Walk TypeExpr}

/-- Where something is wrong with a literal type a walk fails for that. -/
theorem literal_of_flaw {t : TypeId} {kind : Kind} {f : Failure} (hk : (host.type t).kind = .ok kind)
    (hl : kind = .booleanLiteral ∨ kind = .stringLiteral ∨ kind = .numberLiteral)
    (h : host.typeFlaw? t = some f) : (literal host t kind : Walk TypeExpr) = fail f := by
  unfold literal
  rcases hl with rfl | rfl | rfl <;> cases hv : (host.type t).literal? with
  | none =>
    simp only [Host.typeFlaw?, hk, hv, Option.some.injEq] at h
    subst h
    rfl
  | some v =>
    cases v with
    | number x =>
      cases hx : Json.Number.ofLiteral? x <;> simp_all [Host.typeFlaw?, orUnexpected, unexpected]
      all_goals rfl
    | _ => simp_all [Host.typeFlaw?, unexpected]

/-- Where something is wrong with a type a walk of its structure fails for that. -/
theorem structural_of_flaw {t : TypeId} {f : Failure} (h : host.typeFlaw? t = some f) :
    structural host settings resolve t = fail f := by
  cases hk : (host.type t).kind with
  | error fault =>
    simp only [Host.typeFlaw?, hk, Option.some.injEq] at h
    simp only [structural, hk, ← h]
    rfl
  | ok kind =>
    cases kind with
    | booleanLiteral | stringLiteral | numberLiteral =>
      simp only [structural, hk]
      exact literal_of_flaw hk (by simp) h
    | index | reference =>
      simp only [Host.typeFlaw?, hk, Option.ite_none_left_eq_some, Bool.not_eq_true,
        Option.isSome_eq_false_iff, Option.isNone_iff_eq_none, Option.some.injEq] at h
      simp only [structural, hk, instantiation, h.1, ← h.2]
      rfl
    | indexedAccess =>
      simp only [Host.typeFlaw?, hk, Option.ite_none_left_eq_some, Bool.not_eq_true,
        Option.isSome_eq_false_iff, Option.isNone_iff_eq_none, Option.some.injEq] at h
      simp only [structural, hk, h.1, ← h.2]
      rfl
    | conditional | enum =>
      simp only [Host.typeFlaw?, hk, Option.some.injEq] at h
      simp only [structural, hk, ← h]
    | _ => simp [Host.typeFlaw?, hk] at h

variable {E : Stop → Prop} {flags : TypeId → TypeFlags} {literal? : TypeId → Option Literal}
variable (h : host.Revises E flags literal?)
include h

/-! ## The rules for one type -/

omit h in
/-- A walk asks no type but a literal type for its value. -/
theorem structural_congr {t : TypeId} (hflags : flags t = (host.type t).flags)
    (hliteral : (host.type t).isLiteral = true → literal? t = (host.type t).literal?) :
    structural (host.revise flags literal?) settings resolve t = structural host settings resolve t := by
  have hkind : ((host.revise flags literal?).type t).kind = (host.type t).kind := by
    simp only [HostType.kind, Host.revise, hflags]
  cases hk : (host.type t).kind with
  | error fault => simp only [structural, hkind, hk]
  | ok kind =>
    have hvalue : (host.type t).isLiteral = true →
        ((host.revise flags literal?).type t).literal? = (host.type t).literal? := hliteral
    cases kind with
    | booleanLiteral | stringLiteral | numberLiteral =>
      simp only [structural, hkind, hk, literal, hvalue (by simp only [HostType.isLiteral, hk])]
    | _ => simp only [structural, hkind, hk] <;> rfl

theorem structural_revise (t : TypeId) :
    Unless E (structural host settings resolve t) (structural (host.revise flags literal?) settings resolve t) := by
  rcases h.type t with ⟨hflags, hliteral⟩ | ⟨f, hf, hE⟩
  · rw [structural_congr hflags hliteral]
    exact .refl _
  · rw [structural_of_flaw hf]
    exact .stop hE fun p => ⟨p, rfl⟩

theorem aliasBody_revise (record : BundleId) (s : SymbolId) (d : TypeId) :
    Unless E (aliasBody host settings resolve record s d)
      (aliasBody (host.revise flags literal?) settings resolve record s d) := by
  simp only [aliasBody, h.isObjectLiteral]
  exact .ite (.refl _) (.bind (.refl _) fun _ => .ite (.refl _) (structural_revise h d))

theorem aliasRecord_revise (record : BundleId) (s : SymbolId) :
    Unless E (aliasRecord host settings resolve record s)
      (aliasRecord (host.revise flags literal?) settings resolve record s) :=
  .bind (.refl _) fun _ => .bind (.refl _) fun _ => .bind (.refl _) fun _ =>
    .bind (aliasBody_revise h _ _ _) fun _ => .refl _

theorem step_revise (t : TypeId) :
    Unless E (step host settings resolve t) (step (host.revise flags literal?) settings resolve t) := by
  cases h' : (host.type t).alias? with
  | none =>
    have hrevised : ((host.revise flags literal?).type t).alias? = none := h'
    simp only [step, h', hrevised]
    exact structural_revise h t
  | some s =>
    have hrevised : ((host.revise flags literal?).type t).alias? = some s := h'
    simp only [step, h', hrevised, aliasOccurrence]
    exact .bind (.expanding fun _ => (aliasRecord_revise h _ _).map) fun _ => .refl _

end Rules

/-! ## Whole passes -/

variable {host : Host} {settings : Settings} {E : Stop → Prop} {flags : TypeId → TypeFlags}
variable {literal? : TypeId → Option Literal}

theorem resolve_revise (h : host.Revises E flags literal?) (depth : Nat) (t : TypeId) :
    Unless E (resolve host settings depth t) (resolve (host.revise flags literal?) settings depth t) := by
  induction depth generalizing t with
  | zero => exact .refl _
  | succ depth ih => exact (step_unless ih t).trans (step_revise h t)

/-- A pass does the same over a host that says something else of some types, unless it stops at one of these. -/
theorem bundle_revise (h : host.Revises E flags literal?) (depth : Nat) (global : SymbolId) (modules : List SymbolId) :
    Unless E (bundle host settings depth global modules)
      (bundle (host.revise flags literal?) settings depth global modules) := by
  have hsymbol : (host.revise flags literal?).symbol = host.symbol := rfl
  exact bundle_unless hsymbol (resolve_revise h depth) global modules

end Walk

/-! ## Traps -/

/-- The flags of a conditional type that is an object just if the type is. -/
def HostType.snare (t : HostType) : TypeFlags :=
  if t.flags.contains TypeFlags.object then .conditional ||| .object else .conditional

namespace Host

/-- The host with conditional types for those of the set, whatever they were. -/
def trap (host : Host) (bad : TypeId → Prop) [DecidablePred bad] : Host :=
  host.revise (fun t => if bad t then (host.type t).snare else (host.type t).flags)
    fun t => if bad t then none else (host.type t).literal?

variable {host : Host} {bad : TypeId → Prop} [DecidablePred bad] {t : TypeId}

theorem trap_of_not (h : ¬bad t) : (host.trap bad).type t = host.type t := by
  simp only [trap, revise, if_neg h]

theorem kind_trap (h : bad t) : ((host.trap bad).type t).kind = .ok .conditional := by
  simp only [trap, revise, if_pos h, HostType.kind, HostType.snare]
  split <;> rfl

theorem isObjectLiteral_trap (t : TypeId) :
    Walk.isObjectLiteral ((host.trap bad).type t) = Walk.isObjectLiteral (host.type t) := by
  by_cases h : bad t
  · simp only [Walk.isObjectLiteral, trap, revise, if_pos h, HostType.snare]
    cases hobject : (host.type t).flags.contains TypeFlags.object <;> rfl
  · rw [trap_of_not h]

theorem typeFlaw?_trap (h : bad t) : (host.trap bad).typeFlaw? t = some (.unsupported (.conditional t)) := by
  simp only [typeFlaw?, kind_trap h]

end Host

namespace Walk

variable {host : Host} {bad : TypeId → Prop} [DecidablePred bad]

/-- The walk stops for the trap at a type of the set. -/
def AtTrap (bad : TypeId → Prop) (e : Stop) : Prop := ∃ t, bad t ∧ e = .failed (.unsupported (.conditional t))

/-- A pass over a host with traps stops at a trap, or is a pass over the host. -/
theorem bundle_of_trap (settings : Settings) (depth : Nat) (global : SymbolId) (modules : List SymbolId) :
    Unless (AtTrap bad) (bundle (host.trap bad) settings depth global modules)
      (bundle host settings depth global modules) := by
  -- without the traps it is the host again
  have hback : (host.trap bad).revise (fun t => (host.type t).flags) (fun t => (host.type t).literal?) = host := rfl
  have h : (host.trap bad).Revises (AtTrap bad) (fun t => (host.type t).flags) fun t => (host.type t).literal? := by
    constructor
    · intro t
      rw [hback, Host.isObjectLiteral_trap]
    · intro t
      by_cases ht : bad t
      · exact .inr ⟨_, Host.typeFlaw?_trap ht, t, ht, rfl⟩
      · rw [Host.trap_of_not ht]
        exact .inl ⟨rfl, fun _ => rfl⟩
  have hbundle : Unless (AtTrap bad) (bundle (host.trap bad) settings depth global modules)
      (bundle _ settings depth global modules) := bundle_revise h depth global modules
  rwa [hback] at hbundle

/-- The walk stops for what is wrong with a type of the set. -/
def AtFlaw (host : Host) (bad : TypeId → Prop) (e : Stop) : Prop :=
  ∃ t f, bad t ∧ host.typeFlaw? t = some f ∧ e = .failed f

/-- Where something is wrong with every type that has a trap, the pass stops there as well without the traps. -/
theorem bundle_trap (hbad : ∀ t, bad t → host.typeFlaw? t ≠ none) (settings : Settings) (depth : Nat)
    (global : SymbolId) (modules : List SymbolId) :
    Unless (AtFlaw host bad) (bundle host settings depth global modules)
      (bundle (host.trap bad) settings depth global modules) := by
  refine bundle_revise ⟨Host.isObjectLiteral_trap, fun t => ?_⟩ depth global modules
  by_cases ht : bad t
  · obtain ⟨f, hf⟩ := Option.ne_none_iff_exists'.1 (hbad t ht)
    exact .inr ⟨f, hf, t, f, ht, hf, rfl⟩
  · exact .inl ⟨if_neg ht, fun _ => if_neg ht⟩

end Walk

end TypeBundle
