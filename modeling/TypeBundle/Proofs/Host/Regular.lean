import TypeBundle.Proofs.Host.Kind
import TypeBundle.Proofs.Pass.Represents
/-!
# Hosts with flags that agree

What a type checker promises about the flags of its types: those of objects and of type parameters exclude
other flags, and types stand only where their flags allow it. On such hosts the tests that a pass makes of a
type agree with one another.
-/

namespace TypeBundle.Host

variable {host : Host} {t u : TypeId}

/-- The type stands where type parameters stand, or is flagged as one. -/
def LooksLikeParameter (host : Host) (t : TypeId) : Prop :=
  host.InParameterList t ∨ (host.type t).flags.contains TypeFlags.typeParameter = true

/-- Type parameters are flagged as such and as nothing else, and are not instantiated. -/
structure ParametersApart (host : Host) : Prop where
  flags : ∀ t, host.LooksLikeParameter t → (host.type t).flags = TypeFlags.typeParameter
  targets : ∀ t u, (host.type t).kind = .ok .reference → (host.type t).target? = some u → ¬host.LooksLikeParameter u

/-- The flags of a host exclude one another where they should. -/
structure Regular (host : Host) : Prop where
  object : ∀ t, (host.type t).flags.contains TypeFlags.object = true → (host.type t).flags = TypeFlags.object
  parameter : ∀ t, (host.type t).flags.contains TypeFlags.typeParameter = true →
    (host.type t).flags = TypeFlags.typeParameter
  anonymous : ∀ t, (host.type t).objectFlags.contains ObjectFlags.anonymous = true →
    (host.type t).objectFlags.contains ObjectFlags.class_ = false ∧
      (host.type t).objectFlags.contains ObjectFlags.interface = false
  parameterLists : ∀ t, host.InParameterList t → (host.type t).flags.contains TypeFlags.typeParameter = true
  targets : ∀ t u, (host.type t).kind = .ok .reference → (host.type t).target? = some u →
    (host.type u).flags.contains TypeFlags.object = true ∧
      ((host.type u).objectFlags.contains ObjectFlags.class_ = true ∨
        (host.type u).objectFlags.contains ObjectFlags.interface = true ∨ host.IsTuple u)
  /-- An object literal that an alias names is written by an alias. -/
  literals : ∀ s d, (host.symbol s).declaredType? = some d → Walk.isObjectLiteral (host.type d) = true →
    (host.type d).alias? ≠ none

/-! ## Type parameters -/

theorem LooksLikeParameter.of_isParameter (h : host.IsParameter t) : host.LooksLikeParameter t :=
  h.imp_right Kind.typeParameter_of_ofFlags

namespace ParametersApart

variable (hapart : host.ParametersApart)
include hapart

theorem kind_eq (h : host.IsParameter t) : (host.type t).kind = .ok .typeParameter := by
  rw [HostType.kind, hapart.flags t (.of_isParameter h)]
  exact Kind.ofFlags_typeParameter _

theorem not_declared (h : host.IsParameter t) : ¬host.IsDeclared t := by
  rintro (hk | ⟨u, hu, ht, -⟩)
  · rw [hapart.kind_eq h] at hk
    cases hk
  · exact hapart.targets u t hu ht (.of_isParameter h)

theorem not_literalOf (h : host.IsParameter t) (s : SymbolId) : ¬host.IsLiteralOf s t := by
  rintro ⟨-, -, hl⟩
  have : (TypeFlags.typeParameter).contains TypeFlags.object = false := by decide
  rw [Walk.isObjectLiteral, hapart.flags t (.of_isParameter h), this] at hl
  cases hl

/-- A type parameter never has a record. -/
theorem not_represented (h : host.IsParameter t) {settings : Settings} {q : Progress} {record : Record} :
    ¬RepresentsRecord host settings q (.type t) record := by
  intro hrep
  cases hrep with
  | declaration hd _ _ => exact hapart.not_declared h hd
  | literal hk _ _ =>
    rw [hapart.kind_eq h] at hk
    cases hk
  | shared hl _ _ => exact hapart.not_literalOf h _ hl

end ParametersApart

/-! ## Objects -/

namespace Regular

variable (hr : host.Regular)
include hr

theorem parametersApart : host.ParametersApart := by
  have hflags : ∀ t, host.LooksLikeParameter t → (host.type t).flags = TypeFlags.typeParameter := fun t ht =>
    hr.parameter t (ht.elim (hr.parameterLists t) fun hf => hf)
  refine ⟨hflags, fun t u hk hu hlooks => ?_⟩
  have hobject := (hr.targets t u hk hu).1
  rw [hflags u hlooks] at hobject
  exact absurd hobject (by decide)

/-- The two tests for object literals agree. -/
theorem isObjectLiteral_iff (t : TypeId) :
    Walk.isObjectLiteral (host.type t) = true ↔ (host.type t).kind = .ok .anonymous := by
  refine ⟨fun hl => ?_, Walk.isObjectLiteral_of_anonymous⟩
  simp only [Walk.isObjectLiteral, Bool.and_eq_true, Bool.not_eq_true'] at hl
  obtain ⟨⟨ho, ha⟩, href⟩ := hl
  obtain ⟨hc, hi⟩ := hr.anonymous t ha
  have hnominal : (host.type t).objectFlags.intersects (ObjectFlags.class_ ||| ObjectFlags.interface) = false := by
    rw [Flags.intersects_or]
    exact Bool.or_eq_false_iff.2
      ⟨(Flags.intersects_single _ (by decide)).trans hc, (Flags.intersects_single _ (by decide)).trans hi⟩
  rw [HostType.kind, hr.object t ho]
  refine Kind.ofFlags_object ?_
  simp [Kind.ofObject?, href, hnominal, ha]

/-- What is declared is no object literal. -/
theorem kind_ne_of_declared (h : host.IsDeclared t) : (host.type t).kind ≠ .ok .anonymous := by
  intro ha
  rcases h with hk | ⟨u, hu, ht, htuple⟩
  · rw [hk] at ha
    cases ha
  · obtain ⟨-, -, hanonymous⟩ := Kind.ofObject?_eq_anonymous (Kind.object_of_ofFlags ha (by simp)).2
    obtain ⟨hc, hi⟩ := hr.anonymous t hanonymous
    rcases (hr.targets u t hu ht).2 with hc' | hi' | htuple'
    · rw [hc] at hc'
      cases hc'
    · rw [hi] at hi'
      cases hi'
    · exact htuple htuple'

theorem kind_of_literalOf {s : SymbolId} (h : host.IsLiteralOf s t) : (host.type t).kind = .ok .anonymous :=
  (hr.isObjectLiteral_iff t).1 h.2.2

/-- An object literal is written by the alias that names it. -/
theorem alias_of_literalOf {s : SymbolId} (h : host.IsLiteralOf s t) : (host.type t).alias? = some s := by
  obtain ⟨s', hs'⟩ := Option.ne_none_iff_exists'.1 (hr.literals s t h.1 h.2.2)
  have hother := h.2.1
  simp only [NamesOther, hs', Option.any_some, decide_eq_true_eq, ne_eq, not_not] at hother
  rw [hs', hother]

end Regular

end TypeBundle.Host
