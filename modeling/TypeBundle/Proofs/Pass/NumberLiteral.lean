import TypeBundle.Proofs.Number.Value
import TypeBundle.Proofs.Walk.Revise
/-!
# Numeric literals keep their values

A double that is an integer of at most 53 bits is written as that integer, any other finite double as itself, and what is
not finite not at all. So the JSON form of a literal has its value, and two literals have one form just if they have one
value. A walk that looks at a literal type by its structure gives this form, or it fails because the type has no finite
number (`numberLiteral_exact`).
-/

namespace TypeBundle

/-- The number is an integer, and all integers up to its size have a double of their own. -/
structure Binary64.IsSafeInteger (x : Binary64) : Prop where
  isFinite : x.isFinite = true
  integral : ∃ n : ℤ, x.value = n
  bounded : |x.value| ≤ 2 ^ 53 - 1

namespace Json.Number

/-- The exact value of a number. -/
def value : Number → ℚ
  | integer n _ => n
  | float x _ => x.value

theorem cast_greatestSafeInteger : (greatestSafeInteger : ℚ) = 2 ^ 53 - 1 := by norm_num [greatestSafeInteger]

variable {x y : Binary64}

theorem isSafeInteger_iff : x.IsSafeInteger ↔ x.isFinite = true ∧
    (x.isIntegral && decide (x.units ≤ greatestSafeInteger * Binary64.unitsPerOne)) = true := by
  rw [Bool.and_eq_true, decide_eq_true_eq, Binary64.isIntegral_iff, ← Binary64.abs_value_le, cast_greatestSafeInteger]
  exact ⟨fun h => ⟨h.isFinite, h.integral, h.bounded⟩,
    fun ⟨hfinite, hintegral, hbounded⟩ => ⟨hfinite, hintegral, hbounded⟩⟩

theorem ofLiteral?_of_isSafeInteger (h : x.IsSafeInteger) : ofLiteral? x = some (.ofInt64 x.toInt64) := by
  obtain ⟨hfinite, hsafe⟩ := isSafeInteger_iff.1 h
  rw [ofLiteral?, if_pos hfinite, if_pos hsafe]

theorem ofLiteral?_of_not_isSafeInteger (hfinite : x.isFinite = true) (h : ¬x.IsSafeInteger) :
    ofLiteral? x = some (.float x hfinite) := by
  rw [isSafeInteger_iff, not_and] at h
  rw [ofLiteral?, if_pos hfinite, if_neg (h hfinite), ofFloat?, dif_pos hfinite]

theorem ofLiteral?_eq_none_iff : ofLiteral? x = none ↔ x.isNaN = true ∨ x.isInfinite = true := by
  rw [← Binary64.isFinite_eq_false_iff]
  cases hfinite : x.isFinite with
  | false => simp [ofLiteral?, hfinite]
  | true =>
    by_cases h : x.IsSafeInteger
    · simp [ofLiteral?_of_isSafeInteger h]
    · simp [ofLiteral?_of_not_isSafeInteger hfinite h]

theorem exists_integer_iff : (∃ n fits, ofLiteral? x = some (.integer n fits)) ↔ x.IsSafeInteger := by
  refine ⟨fun ⟨n, fits, hn⟩ => ?_, fun h => ⟨_, _, ofLiteral?_of_isSafeInteger h⟩⟩
  by_contra h
  cases hfinite : x.isFinite with
  | false => simp [ofLiteral?, hfinite] at hn
  | true => simp [ofLiteral?_of_not_isSafeInteger hfinite h] at hn

/-- Cutting a safe integer to 64 bits drops nothing and stays off the bounds. -/
theorem value_toInt64 (h : x.IsSafeInteger) : (x.toInt64.toInt : ℚ) = x.value := by
  obtain ⟨hfinite, ⟨n, hn⟩, hbounded⟩ := h
  have hbounds : |n| ≤ 2 ^ 53 - 1 := by
    rw [hn] at hbounded
    exact_mod_cast hbounded
  have hn' := abs_le.1 hbounds
  rw [Binary64.toInt_toInt64 hfinite hn (by omega) (by omega), hn]

/-- The form of a literal has its value. -/
theorem value_of_ofLiteral? {n : Number} (h : ofLiteral? x = some n) : n.value = x.value := by
  have hfinite : x.isFinite = true := by
    by_contra hnot
    rw [ofLiteral?, if_neg hnot] at h
    cases h
  by_cases hsafe : x.IsSafeInteger
  · rw [ofLiteral?_of_isSafeInteger hsafe] at h
    cases h
    exact value_toInt64 hsafe
  · rw [ofLiteral?_of_not_isSafeInteger hfinite hsafe] at h
    cases h
    rfl

/-- Both zeros are the integer zero. -/
theorem ofLiteral?_of_isZero (h : x.isZero = true) : ofLiteral? x = some (.ofInt64 0) := by
  have hvalue := Binary64.value_eq_zero_iff.2 h
  have hfinite : x.isFinite = true := by
    rw [Binary64.isFinite_iff, beq_iff_eq.1 h]
    decide
  have hsafe : x.IsSafeInteger := ⟨hfinite, ⟨0, by simpa using hvalue⟩, by norm_num [hvalue]⟩
  have hzero : x.toInt64 = 0 := by
    rw [← Int64.toInt_inj]
    exact Binary64.toInt_toInt64 hfinite (by simpa using hvalue) (by decide) (by decide)
  rw [ofLiteral?_of_isSafeInteger hsafe, hzero]

/-- Two literals have one form just if they have one value. -/
theorem ofLiteral?_eq_iff (hx : x.isFinite = true) (hy : y.isFinite = true) :
    ofLiteral? x = ofLiteral? y ↔ x.value = y.value := by
  constructor
  · intro h
    cases hn : ofLiteral? x with
    | none =>
      rw [ofLiteral?_eq_none_iff, ← Binary64.isFinite_eq_false_iff, hx] at hn
      cases hn
    | some n => rw [← value_of_ofLiteral? hn, value_of_ofLiteral? (h ▸ hn)]
  · intro h
    rcases Binary64.value_inj h with rfl | ⟨hzero, hzero'⟩
    · rfl
    · rw [ofLiteral?_of_isZero hzero, ofLiteral?_of_isZero hzero']

end Json.Number

/-! ## Walks of literal types -/

namespace Walk

variable {host : Host} {settings : Settings} {resolve : TypeId → Walk TypeExpr} {t : TypeId}

/-- The walk gives the number of a literal type with its exact value and does nothing else, or it fails because the type
has no finite number. -/
def KeepsNumber (t : HostType) (w : Walk TypeExpr) : Prop :=
  (∃ x n, t.literal? = some (.number x) ∧ n.value = x.value ∧ w = pure (.primitive .numberLiteral (some (.number n)))) ∨
    ∃ f, w = fail f ∧ ∀ x, t.literal? = some (.number x) → x.isNaN = true ∨ x.isInfinite = true

theorem structural_keepsNumber (hk : (host.type t).kind = .ok .numberLiteral) :
    KeepsNumber (host.type t) (structural host settings resolve t) := by
  cases hflaw : host.typeFlaw? t with
  | some f =>
    refine .inr ⟨f, structural_of_flaw hflaw, fun x hx => ?_⟩
    rw [← Json.Number.ofLiteral?_eq_none_iff]
    cases hn : Json.Number.ofLiteral? x with
    | none => rfl
    | some n => simp [Host.typeFlaw?, hk, hx, hn] at hflaw
  | none =>
    simp only [Host.typeFlaw?, hk] at hflaw
    split at hflaw
    · rename_i x hx
      have hsome : Json.Number.ofLiteral? x ≠ none := by simpa using hflaw
      obtain ⟨n, hn⟩ := Option.ne_none_iff_exists'.1 hsome
      refine .inl ⟨x, n, hx, Json.Number.value_of_ofLiteral? hn, ?_⟩
      simp only [structural, hk, literal, hx, hn, orUnexpected]
      rfl
    · cases hflaw

/-- What an alias declares is walked by its structure, unless it is another alias or an object literal. -/
theorem aliasBody_keepsNumber (hk : (host.type t).kind = .ok .numberLiteral) {record : BundleId} {s : SymbolId}
    (hother : ¬host.NamesOther s t) (hliteral : isObjectLiteral (host.type t) = false) :
    KeepsNumber (host.type t) (aliasBody host settings resolve record s t) := by
  have hbody : aliasBody host settings resolve record s t = structural host settings resolve t :=
    funext fun p => aliasBody_of_body hother fun h => absurd h (by simp [hliteral])
  rw [hbody]
  exact structural_keepsNumber hk

theorem resolve_keepsNumber (hk : (host.type t).kind = .ok .numberLiteral) (halias : (host.type t).alias? = none)
    (depth : Nat) : KeepsNumber (host.type t) (Walk.resolve host settings (depth + 1) t) := by
  rw [Walk.resolve, step, halias]
  exact structural_keepsNumber hk

end Walk

/-- A literal has no form if it is not finite, it is an integer just if it is a safe one, and itself otherwise. So forms
of finite literals are the same just if their values are. A type of the kind of number literals keeps the value wherever
it is walked by its structure, or the walk fails because there is none. -/
theorem numberLiteral_exact :
    (∀ x : Binary64, (Json.Number.ofLiteral? x = none ↔ x.isNaN = true ∨ x.isInfinite = true) ∧
      ((∃ n fits, Json.Number.ofLiteral? x = some (.integer n fits)) ↔ x.IsSafeInteger) ∧
      (x.IsSafeInteger → Json.Number.ofLiteral? x = some (.ofInt64 x.toInt64) ∧ (x.toInt64.toInt : ℚ) = x.value) ∧
      (x.isZero = true → Json.Number.ofLiteral? x = some (.ofInt64 0)) ∧
      ∀ hfinite : x.isFinite = true, ¬x.IsSafeInteger → Json.Number.ofLiteral? x = some (.float x hfinite)) ∧
    (∀ x y : Binary64, x.isFinite = true → y.isFinite = true →
      (Json.Number.ofLiteral? x = Json.Number.ofLiteral? y ↔ x.value = y.value)) ∧
    ∀ (host : Host) (settings : Settings) (t : TypeId), (host.type t).kind = .ok .numberLiteral →
      (∀ resolve, Walk.KeepsNumber (host.type t) (Walk.structural host settings resolve t)) ∧
      ((host.type t).alias? = none → ∀ depth,
        Walk.KeepsNumber (host.type t) (Walk.resolve host settings (depth + 1) t)) ∧
      ∀ resolve record s, ¬host.NamesOther s t → Walk.isObjectLiteral (host.type t) = false →
        Walk.KeepsNumber (host.type t) (Walk.aliasBody host settings resolve record s t) := by
  refine ⟨fun x => ⟨Json.Number.ofLiteral?_eq_none_iff, Json.Number.exists_integer_iff,
    fun h => ⟨Json.Number.ofLiteral?_of_isSafeInteger h, Json.Number.value_toInt64 h⟩,
    Json.Number.ofLiteral?_of_isZero, Json.Number.ofLiteral?_of_not_isSafeInteger⟩,
    fun x y => Json.Number.ofLiteral?_eq_iff, fun host settings t hk => ⟨fun resolve => ?_, fun halias depth => ?_, ?_⟩⟩
  · exact Walk.structural_keepsNumber hk
  · exact Walk.resolve_keepsNumber hk halias depth
  · intro resolve record s hother hliteral
    exact Walk.aliasBody_keepsNumber hk hother hliteral

/-- The greatest double that is written as an integer. -/
def greatestSafe : Binary64 := ⟨0x433FFFFFFFFFFFFF⟩

/-- A host all of whose types are the literal 2^53. -/
def limitHost : Host where
  type _ := { flags := .numberLiteral, literal? := some (.number ⟨0x4340000000000000⟩) }
  symbol _ := default
  signature _ := default

theorem numberLiteral_exact_limit : greatestSafe.IsSafeInteger ∧
    Json.Number.ofLiteral? greatestSafe = some (.ofInt64 greatestSafe.toInt64) ∧
    (greatestSafe.toInt64.toInt : ℚ) = greatestSafe.value ∧
    (limitHost.type ⟨1⟩).kind = .ok .numberLiteral ∧ (limitHost.type ⟨1⟩).alias? = none ∧
    Walk.KeepsNumber (limitHost.type ⟨1⟩) (Walk.resolve limitHost .default 1 ⟨1⟩) := by
  have hsafe : greatestSafe.IsSafeInteger := Json.Number.isSafeInteger_iff.2 ⟨by decide +kernel, by decide +kernel⟩
  have hk : (limitHost.type ⟨1⟩).kind = .ok .numberLiteral := by decide +kernel
  obtain ⟨hforms, -, hwalks⟩ := numberLiteral_exact
  obtain ⟨-, -, hcut, -⟩ := hforms greatestSafe
  exact ⟨hsafe, (hcut hsafe).1, (hcut hsafe).2, hk, rfl, (hwalks limitHost .default ⟨1⟩ hk).2.1 rfl 0⟩

end TypeBundle
