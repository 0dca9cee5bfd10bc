import Mathlib.Tactic.Ring
import TypeBundle.Proofs.Number.Nearest
import TypeBundle.Proofs.Number.Shortest
/-!
# The range of shortest decimals

The decimals of doubles stay well inside the range of the format (`shortest_inRange`): those below the last binade are
at most 2^1023, and those of the last binade are multiples of 10^292, the greatest of them being that of the greatest
double. So a decimal that has lost some of its last digits can be multiplied out in doubles, though each step rounds
(`times_isFinite`). Quotients by powers of ten stay in range anyway (`AtMostWord.over`).
-/

namespace TypeBundle

/-- The decimal of the greatest double. -/
def Decimal.greatest : ℕ := 17976931348623157 * 10 ^ 292

/-- The quotient is what a decimal of a double may be that is a multiple of `10 ^ exponent`. -/
def Decimal.InRange (num den : ℕ) (exponent : ℤ) : Prop :=
  num ≤ 2 ^ 1023 * den ∨ 292 ≤ exponent ∧ num ≤ Decimal.greatest * den

namespace Binary64

variable {x y : Binary64} {tie : TieRule}

/-! ## Grids -/

theorem exponent_onGrid {e : ℤ} {d : Decimal} (h : onGrid? tie x e = some d) : d.exponent = e := by
  obtain ⟨digits, -, rfl⟩ := Option.map_eq_some_iff.1 h
  rfl

/-- No finer grid is used than one that has a hit. -/
theorem le_exponent_onGridsBelow {e start : ℤ} (he : (onGrid? tie x e).isSome = true) {steps : ℕ} (hlt : e < start)
    (hle : start ≤ e + steps) : ∃ d, onGridsBelow? tie x start steps = some d ∧ e ≤ d.exponent := by
  induction steps generalizing start with
  | zero => omega
  | succ steps ih =>
    unfold onGridsBelow?
    cases hgrid : onGrid? tie x (start - 1) with
    | some d => exact ⟨d, rfl, by rw [exponent_onGrid hgrid]; omega⟩
    | none =>
      have hne : e ≠ start - 1 := by
        rintro rfl
        simp [hgrid] at he
      exact ih (by omega) (by omega)

theorem Interval.holds_of_lt {i : Interval} {num den : ℕ} (hlow : i.low * den < num * i.scale)
    (hhigh : num * i.scale < i.high * den) : i.holds num den = true := by
  unfold Interval.holds
  split <;> simp only [Bool.and_eq_true, decide_eq_true_eq] <;> omega

theorem interval_low_le (hx : x.isZero = false) : x.interval.low + 2 ^ x.shift ≤ 4 * x.units := by
  have hgap : 2 ^ x.shift ≤ x.units := le_units hx
  have hpow : Nat.pow 2 x.shift = 2 ^ x.shift := rfl
  simp only [interval, hpow]
  split <;> omega

/-- A grid has a hit if its step is less than three quarters of the distance between two doubles. -/
theorem isSome_onGrid (hx : x.isZero = false) {e : ℕ} (h : 4 * (unitsPerOne * 10 ^ e) < 3 * 2 ^ x.shift) :
    (onGrid? tie x e).isSome = true := by
  have hdiv := Nat.div_add_mod x.units (unitsPerOne * 10 ^ e)
  have hmod := Nat.mod_lt x.units (Nat.mul_pos unitsPerOne_pos (Nat.pow_pos (n := e) (by decide : 0 < 10)))
  have hlow := interval_low_le hx
  have hhigh : x.interval.high = 4 * x.units + 2 * 2 ^ x.shift := rfl
  have hpoint (c : ℕ) : c * 10 ^ e * x.interval.scale = 4 * (unitsPerOne * 10 ^ e * c) := by
    simp only [interval]
    ring
  -- the one neighbour is near enough, or the other is
  have hside : x.interval.holds (x.units / (unitsPerOne * 10 ^ e) * 10 ^ e) 1 = true ∨
      x.interval.holds ((x.units / (unitsPerOne * 10 ^ e) + 1) * 10 ^ e) 1 = true := by
    rcases Nat.lt_or_ge (4 * (x.units % (unitsPerOne * 10 ^ e))) (2 ^ x.shift) with hnear | hfar
    · refine .inl (Interval.holds_of_lt ?_ ?_) <;> rw [hpoint] <;> omega
    · refine .inr (Interval.holds_of_lt ?_ ?_) <;> rw [hpoint, Nat.mul_add, Nat.mul_one] <;> omega
  simp only [onGrid?, Nat.pow_eq, Nat.mul_one, Option.isSome_map]
  clear hdiv hmod hlow hpoint h
  generalize x.units / (unitsPerOne * 10 ^ e) = c at hside ⊢
  generalize x.units % (unitsPerOne * 10 ^ e) = r
  generalize unitsPerOne * 10 ^ e = den
  grind

/-! ## Shortest decimals -/

theorem holds_le {i : Interval} {num den : ℕ} (h : i.holds num den = true) : num * i.scale ≤ i.high * den := by
  unfold Interval.holds at h
  split at h <;> simp only [Bool.and_eq_true, decide_eq_true_eq] at h <;> omega

/-- The shortest decimal does not go beyond the reals that round to the number. -/
theorem numerator_shortest_le {bound : ℕ} (hx : x.isZero = false) (h : x.interval.high ≤ bound * x.interval.scale) :
    (x.shortest tie).numerator ≤ bound * (x.shortest tie).denominator := by
  have hscale : 0 < x.interval.scale := Nat.mul_pos (by decide) unitsPerOne_pos
  refine Nat.le_of_mul_le_mul_right ?_ hscale
  rcases shortest_cases tie hx with hholds | heq
  · calc (x.shortest tie).numerator * x.interval.scale ≤ x.interval.high * (x.shortest tie).denominator := holds_le hholds
      _ ≤ bound * x.interval.scale * (x.shortest tie).denominator := Nat.mul_le_mul_right _ h
      _ = bound * (x.shortest tie).denominator * x.interval.scale := by ring
  · -- the units themselves, over a greater power of ten than there are units in one
    have hunits : x.units * 4 ≤ x.interval.high := by
      simp only [interval]
      omega
    have hden : unitsPerOne ≤ (x.shortest tie).denominator := by
      rw [heq]
      exact Nat.pow_le_pow_left (by decide : 2 ≤ 10) (1073 + 1)
    have hnum : (x.shortest tie).numerator = x.units := by
      rw [heq]
      rfl
    rw [hnum]
    calc x.units * x.interval.scale = x.units * 4 * unitsPerOne := by simp only [interval]; ring
      _ ≤ bound * x.interval.scale * (x.shortest tie).denominator := Nat.mul_le_mul (hunits.trans h) hden
      _ = bound * (x.shortest tie).denominator * x.interval.scale := by ring

theorem eq_ofMagnitude (x : Binary64) : x = ofMagnitude x.isNegative x.magnitude := by
  obtain ⟨bits⟩ := x
  have hlt := bits.toNat_lt
  simp only [ofMagnitude, isNegative, magnitude, mk.injEq, ← UInt64.toNat_inj, Nat.toUInt64_eq, UInt64.toNat_ofNat',
    beq_iff_eq]
  split <;> omega

theorem high_eq (x : Binary64) : x.interval.high = (4 * x.significand + 2) * 2 ^ x.shift := by
  simp only [interval, units_eq, Nat.pow_eq]
  ring

theorem significand_lt (x : Binary64) : x.significand < 2 ^ 53 := by
  have hfraction := x.fractionField_lt
  unfold significand
  split <;> omega

/-- The decimals of doubles below the last binade are at most 2^1023; those of the last binade are multiples of
10^292, and at most that of the greatest double. -/
theorem shortest_inRange (hx : x.isZero = false) (hfinite : x.isFinite = true) :
    Decimal.InRange (x.shortest .toEven).numerator (x.shortest .toEven).denominator (x.shortest .toEven).exponent := by
  have hexponent : x.exponentField ≤ 2046 := by
    have hlt := isFinite_iff.1 hfinite
    simp only [infinityBits, exponentField] at hlt ⊢
    omega
  have hsignificand := x.significand_lt
  rcases Nat.lt_or_eq_of_le hexponent with hlt | heq
  · refine .inl (numerator_shortest_le hx ?_)
    have hshift : x.shift ≤ 2044 := by
      unfold shift
      omega
    rw [high_eq]
    calc (4 * x.significand + 2) * 2 ^ x.shift ≤ 2 ^ 55 * 2 ^ 2044 :=
          Nat.mul_le_mul (by omega) (Nat.pow_le_pow_right (by decide) hshift)
      _ ≤ 2 ^ 1023 * x.interval.scale := by
        simp only [interval]
        decide +kernel
  · refine .inr ?_
    have hshift : x.shift = 2045 := by simp [shift, heq]
    have hgrid : (onGrid? .toEven x (292 : ℕ)).isSome = true := isSome_onGrid hx (by rw [hshift]; decide +kernel)
    obtain ⟨d, hd, hle⟩ : ∃ d, onGridsBelow? .toEven x 310 (310 + 1074) = some d ∧ ((292 : ℕ) : ℤ) ≤ d.exponent :=
      le_exponent_onGridsBelow hgrid (by decide) (by decide)
    have hshortest : x.shortest .toEven = d := by
      unfold shortest
      rw [if_neg (by simp [hx]), hd]
      rfl
    refine ⟨by rw [hshortest]; exact hle, ?_⟩
    rcases Nat.lt_or_eq_of_le (Nat.le_of_lt_succ hsignificand) with hless | hgreatest
    · refine numerator_shortest_le hx ?_
      rw [high_eq, hshift]
      calc (4 * x.significand + 2) * 2 ^ 2045 ≤ (4 * (2 ^ 53 - 2) + 2) * 2 ^ 2045 := Nat.mul_le_mul_right _ (by omega)
        _ ≤ Decimal.greatest * x.interval.scale := by
          simp only [interval]
          decide +kernel
    · -- the greatest double of either sign
      have hmagnitude : x.magnitude = infinityBits - 1 := by
        rw [significand, if_neg (by omega)] at hgreatest
        simp only [exponentField, fractionField, infinityBits] at heq hgreatest ⊢
        omega
      rw [eq_ofMagnitude x, hmagnitude]
      cases x.isNegative <;> decide +kernel

/-! ## Products and quotients -/

section Scaling

variable {digits e : ℕ}

theorem powerOfTen_mono {e e' : ℕ} (h : e ≤ e') : (powerOfTen e).magnitude ≤ (powerOfTen e').magnitude :=
  nearest_mono _ _ Nat.one_pos Nat.one_pos (Nat.mul_le_mul_right _ (Nat.pow_le_pow_right (by decide) h))

theorem times_mono {bound e' : ℕ} (hdigits : digits ≤ bound) (he : e ≤ e')
    (h : ((nearest false bound 1).timesMagnitude (powerOfTen e')).isFinite = true) :
    ((nearest false digits 1).timesMagnitude (powerOfTen e)).isFinite = true :=
  isFinite_of_le (timesMagnitude_mono (nearest_mono _ _ Nat.one_pos Nat.one_pos (Nat.mul_le_mul_right _ hdigits))
    (powerOfTen_mono he)) h

/-- The greatest number of digits and zeros that the bound leaves room for. -/
theorem le_div_pow {bound : ℕ} (h : digits * 10 ^ e ≤ bound) : digits ≤ bound / 10 ^ e :=
  (Nat.le_div_iff_mul_le (Nat.pow_pos (by decide))).2 h

/-- The number nearest to a quotient, with its binade found by squaring and not bit by bit. -/
def nearestByLog (negative : Bool) (num den : ℕ) : Binary64 :=
  let scaled := num * unitsPerOne
  let shift := Nat.log 2 (scaled / den) - 52
  let q := roundHalfEven scaled (den <<< shift)
  ofMagnitude negative (min (shift * 0x10000000000000 + q) infinityBits)

theorem nearest_eq_nearestByLog : nearest = nearestByLog := by
  funext negative num den
  simp only [nearest, nearestByLog, Nat.log2_eq_log_two]

/-- Multiplied out in doubles, what is in range stays in range. -/
theorem times_isFinite (hword : digits < 2 ^ 64) (he : e ≤ 308) (h : Decimal.InRange (digits * 10 ^ e) 1 e) :
    ((nearest false digits 1).timesMagnitude (powerOfTen e)).isFinite = true := by
  rcases Nat.lt_or_ge e 289 with hsmall | hlarge
  · exact times_mono (Nat.le_of_lt_succ hword) (Nat.le_of_lt_succ hsmall) (by decide +kernel)
  · simp only [Decimal.InRange, Nat.mul_one] at h
    rcases h with hle | ⟨hexponent, hle⟩
    · have hcheck : ∀ i < 20, ((nearest false (2 ^ 1023 / 10 ^ (289 + i)) 1).timesMagnitude
          (powerOfTen (289 + i))).isFinite = true := by
        simp only [timesMagnitude, powerOfTen, nearest_eq_nearestByLog]
        decide +kernel
      have hfinite := hcheck (e - 289) (by omega)
      rw [Nat.add_sub_cancel' hlarge] at hfinite
      exact times_mono (le_div_pow hle) le_rfl hfinite
    · have hcheck : ∀ i < 17, ((nearest false (Decimal.greatest / 10 ^ (292 + i)) 1).timesMagnitude
          (powerOfTen (292 + i))).isFinite = true := by
        simp only [timesMagnitude, powerOfTen, nearest_eq_nearestByLog]
        decide +kernel
      have hfinite := hcheck (e - 292) (by omega)
      rw [Nat.add_sub_cancel' (by omega)] at hfinite
      exact times_mono (le_div_pow hle) le_rfl hfinite

theorem eq_zero_of_mul_pow_lt {k : ℕ} (hk : k ≤ e) (h : digits * 10 ^ e < 10 ^ k) : digits = 0 := by
  by_contra hne
  have hpow : 10 ^ k ≤ digits * 10 ^ e := calc 10 ^ k ≤ 10 ^ e := Nat.pow_le_pow_right (by decide) hk
    _ ≤ digits * 10 ^ e := Nat.le_mul_of_pos_left _ (Nat.pos_of_ne_zero hne)
  exact Nat.lt_irrefl _ (hpow.trans_lt h)

/-- No digit is left where a power of ten itself is out of range. -/
theorem eq_zero_of_inRange (he : 308 < e) (h : Decimal.InRange (digits * 10 ^ e) 1 e) : digits = 0 := by
  refine eq_zero_of_mul_pow_lt he ?_
  simp only [Decimal.InRange, Nat.mul_one] at h
  rcases h with hle | ⟨-, hle⟩
  · calc digits * 10 ^ e ≤ (2 ^ 93) ^ 11 := hle.trans_eq (Nat.pow_mul 2 93 11)
      _ < (10 ^ 28) ^ 11 := Nat.pow_lt_pow_left (by decide) (by decide)
      _ = 10 ^ 308 := (Nat.pow_mul 10 28 11).symm
      _ ≤ 10 ^ 309 := Nat.pow_le_pow_right (by decide) (by decide)
  · calc digits * 10 ^ e ≤ 17976931348623157 * 10 ^ 292 := hle
      _ < 10 ^ 17 * 10 ^ 292 := Nat.mul_lt_mul_of_pos_right (by decide) (Nat.pow_pos (by decide))
      _ = 10 ^ 309 := (Nat.pow_add 10 17 292).symm

/-- The number is at most 2^64. -/
def AtMostWord (x : Binary64) : Prop := x.magnitude ≤ (nearest false (2 ^ 64) 1).magnitude

theorem AtMostWord.isFinite (h : x.AtMostWord) : x.isFinite = true := isFinite_of_le h (by decide +kernel)

theorem atMostWord_nearest (h : digits < 2 ^ 64) : (nearest false digits 1).AtMostWord :=
  nearest_mono _ _ Nat.one_pos Nat.one_pos (Nat.mul_le_mul_right _ h.le)

/-- A quotient by a power of ten is no greater than the number. -/
theorem AtMostWord.over (h : x.AtMostWord) (e : ℕ) : (x.overMagnitude (powerOfTen e)).AtMostWord := by
  have hone : unitsPerOne ≤ (powerOfTen e).units := by
    have hunits : (powerOfTen 0).units = unitsPerOne := by decide +kernel
    rw [← hunits]
    exact units_mono (powerOfTen_mono (Nat.zero_le e))
  have hx : x.units ≤ 2 ^ 64 * unitsPerOne := by
    have hunits : (nearest false (2 ^ 64) 1).units = 2 ^ 64 * unitsPerOne := by decide +kernel
    rw [← hunits]
    exact units_mono h
  refine nearest_mono _ _ (unitsPerOne_pos.trans_le hone) Nat.one_pos ?_
  rw [Nat.mul_one]
  exact hx.trans (Nat.mul_le_mul_left _ hone)

end Scaling

end Binary64

end TypeBundle
