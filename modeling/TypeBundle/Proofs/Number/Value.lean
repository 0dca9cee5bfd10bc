import Mathlib.Algebra.Order.Field.Rat
import Mathlib.Data.Nat.Cast.Field
import Mathlib.Tactic.NormNum
import TypeBundle.Proofs.Number.Exact
/-!
# What a double denotes

A finite double denotes a dyadic rational, its significand times a power of two (`value`). Numbers that denote the same
are the same, but for the two zeros (`value_inj`). An integer is what remains of a number that denotes one when it is cut
to 64 bits, if it fits them (`toInt_toInt64`).
-/

namespace TypeBundle.Binary64

/-- The exact value of a finite number. -/
def value (x : Binary64) : ℚ := (if x.isNegative then -1 else 1) * (x.significand * 2 ^ ((x.shift : ℤ) - 1074))

theorem cast_unitsPerOne : (unitsPerOne : ℚ) = 2 ^ 1074 := by
  simp only [unitsPerOne, Nat.pow_eq, Nat.cast_pow, Nat.cast_ofNat]

theorem cast_unitsPerOne_pos : (0 : ℚ) < unitsPerOne := Nat.cast_pos.2 unitsPerOne_pos

theorem value_eq (x : Binary64) : x.value = (if x.isNegative then -1 else 1) * (x.units / unitsPerOne) := by
  have hpow : (2 : ℚ) ^ ((x.shift : ℤ) - 1074) = 2 ^ x.shift / 2 ^ 1074 := by
    rw [zpow_sub₀ two_ne_zero, zpow_natCast]
    norm_cast
  rw [value, hpow, cast_unitsPerOne, units_eq, Nat.cast_mul, Nat.cast_pow, mul_div_assoc]
  rfl

theorem abs_value (x : Binary64) : |x.value| = x.units / unitsPerOne := by
  have hnonneg : (0 : ℚ) ≤ x.units / unitsPerOne := div_nonneg (Nat.cast_nonneg _) (Nat.cast_nonneg _)
  rw [value_eq]
  split
  · rw [neg_one_mul, abs_neg, abs_of_nonneg hnonneg]
  · rw [one_mul, abs_of_nonneg hnonneg]

theorem abs_value_le (x : Binary64) (n : ℕ) : |x.value| ≤ n ↔ x.units ≤ n * unitsPerOne := by
  rw [abs_value, div_le_iff₀ cast_unitsPerOne_pos, ← Nat.cast_mul, Nat.cast_le]

theorem value_eq_truncated {x : Binary64} (h : x.isIntegral = true) : x.value = x.truncated := by
  have hwhole : (x.whole : ℚ) = x.units / unitsPerOne :=
    Nat.cast_div (Nat.dvd_of_mod_eq_zero (by simpa [isIntegral] using h)) cast_unitsPerOne_pos.ne'
  rw [value_eq, truncated, ← hwhole]
  split <;> simp

theorem isIntegral_iff {x : Binary64} : x.isIntegral = true ↔ ∃ n : ℤ, x.value = n := by
  refine ⟨fun h => ⟨_, value_eq_truncated h⟩, fun ⟨n, hn⟩ => ?_⟩
  have habs : ((n.natAbs * unitsPerOne : ℕ) : ℚ) = x.units := by
    rw [Nat.cast_mul, Nat.cast_natAbs, Int.cast_abs, ← hn, abs_value, div_mul_cancel₀ _ cast_unitsPerOne_pos.ne']
  rw [isIntegral, ← Nat.cast_injective habs, Nat.mul_mod_left]
  rfl

/-- An integer that fits 64 bits is cut to itself. -/
theorem toInt_toInt64 {x : Binary64} (hfinite : x.isFinite = true) {n : ℤ} (hn : x.value = n) (hlow : -2 ^ 63 ≤ n)
    (hhigh : n < 2 ^ 63) : x.toInt64.toInt = n := by
  have hnan : x.isNaN = false := by
    by_contra h
    have hinfinite := isFinite_eq_false_iff.2 (.inl (Bool.of_not_eq_false h))
    simp [hfinite] at hinfinite
  have htruncated : x.truncated = n := Int.cast_injective ((value_eq_truncated (isIntegral_iff.2 ⟨n, hn⟩)).symm.trans hn)
  have hmin : Int64.minValue.toInt = -2 ^ 63 := Int64.toInt_minValue
  have hmax : Int64.maxValue.toInt = 2 ^ 63 - 1 := Int64.toInt_maxValue
  rw [toInt64, hnan, htruncated]
  exact Int64.toInt_ofIntClamp (by omega) (by omega)

/-! ## Numbers of one value -/

theorem le_significand {x : Binary64} (h : 0 < x.shift) : 2 ^ 52 ≤ x.significand := by
  rw [significand_of_shift_pos h]
  omega

/-- A shift decides the binade of a number: what is shifted more often is greater. -/
theorem shift_le_of_units_le {x y : Binary64} (h : x.units ≤ y.units) : x.shift ≤ y.shift := by
  by_contra hlt
  rw [not_le] at hlt
  have hlow := le_significand (x := x) (by omega)
  have hhigh := significand_lt y
  have hpow : 2 ^ (y.shift + 1) ≤ 2 ^ x.shift := Nat.pow_le_pow_right (by decide) hlt
  rw [units_eq, units_eq] at h
  have := calc 2 ^ 53 * 2 ^ y.shift = 2 ^ 52 * 2 ^ (y.shift + 1) := by rw [Nat.pow_succ]; omega
    _ ≤ x.significand * 2 ^ x.shift := Nat.mul_le_mul hlow hpow
    _ ≤ y.significand * 2 ^ y.shift := h
  exact absurd (Nat.le_of_mul_le_mul_right this (Nat.two_pow_pos _)) (by omega)

theorem magnitude_of_units {x y : Binary64} (h : x.units = y.units) : x.magnitude = y.magnitude := by
  have hshift : x.shift = y.shift := Nat.le_antisymm (shift_le_of_units_le h.le) (shift_le_of_units_le h.ge)
  rw [units_eq, units_eq, hshift] at h
  rw [magnitude_eq_shift, magnitude_eq_shift, hshift, Nat.eq_of_mul_eq_mul_right (Nat.two_pow_pos _) h]

theorem value_eq_zero_iff {x : Binary64} : x.value = 0 ↔ x.isZero = true := by
  rw [← abs_eq_zero, abs_value, div_eq_zero_iff, or_iff_left cast_unitsPerOne_pos.ne', Nat.cast_eq_zero]
  constructor
  · intro hunits
    by_contra hzero
    have hpos := Nat.lt_of_lt_of_le (Nat.two_pow_pos _) (le_units (Bool.not_eq_true _ ▸ hzero))
    omega
  · intro hzero
    rw [isZero, beq_iff_eq] at hzero
    simp [units, significand, exponentField, fractionField, hzero]

/-- Numbers of one value are the same number, but for the two zeros. -/
theorem value_inj {x y : Binary64} (h : x.value = y.value) : x = y ∨ x.isZero = true ∧ y.isZero = true := by
  by_cases hzero : x.value = 0
  · exact .inr ⟨value_eq_zero_iff.1 hzero, value_eq_zero_iff.1 (h ▸ hzero)⟩
  · have habs : (x.units : ℚ) / unitsPerOne = y.units / unitsPerOne := by rw [← abs_value, ← abs_value, h]
    have hunits : x.units = y.units := Nat.cast_injective ((div_left_inj' cast_unitsPerOne_pos.ne').1 habs)
    have hsign : x.isNegative = y.isNegative := by
      have hne : (x.units : ℚ) / unitsPerOne ≠ 0 := by rwa [← abs_value, abs_ne_zero]
      rw [value_eq, value_eq, ← habs, mul_left_inj' hne] at h
      revert h
      cases x.isNegative <;> cases y.isNegative <;> norm_num
    left
    rw [eq_ofMagnitude x, eq_ofMagnitude y, hsign, magnitude_of_units hunits]

end TypeBundle.Binary64
