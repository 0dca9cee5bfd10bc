import Mathlib.Algebra.Group.Nat.Defs
import Mathlib.Data.Nat.Log
import Mathlib.Order.MinMax
import TypeBundle.Number.Binary64
/-!
# Rounding is monotone

A greater quotient is rounded to a greater number (`nearest_mono`): to the same binade it is rounded on the same grid,
and beyond it lies above all that is rounded to the lower one. So products and quotients of doubles are bounded by
those of greater ones, and a double that is below a finite one is finite.
-/

namespace TypeBundle.Binary64

/-! ## The nearest integer -/

section Integer

variable {a b c d : ℕ}

theorem div_le_roundHalfEven (a d : ℕ) : a / d ≤ roundHalfEven a d := by
  unfold roundHalfEven
  grind

theorem roundHalfEven_le (a d : ℕ) : roundHalfEven a d ≤ a / d + 1 := by
  unfold roundHalfEven
  grind

/-- Only the quotient matters. -/
theorem roundHalfEven_mul_right (hc : 0 < c) : roundHalfEven (a * c) (d * c) = roundHalfEven a d := by
  have hlt : 2 * (a % d * c) < d * c ↔ 2 * (a % d) < d := by
    rw [← Nat.mul_assoc, Nat.mul_lt_mul_right hc]
  have hgt : d * c < 2 * (a % d * c) ↔ d < 2 * (a % d) := by
    rw [← Nat.mul_assoc, Nat.mul_lt_mul_right hc]
  simp only [roundHalfEven, Nat.mul_div_mul_right _ _ hc, Nat.mul_mod_mul_right, hlt, hgt]

theorem roundHalfEven_mono (h : a ≤ b) : roundHalfEven a d ≤ roundHalfEven b d := by
  rcases Nat.lt_or_eq_of_le (Nat.div_le_div_right (c := d) h) with hlt | heq
  · exact (roundHalfEven_le a d).trans (Nat.le_trans hlt (div_le_roundHalfEven b d))
  · -- the quotients have the same floor, so the remainders decide
    have hmod : a % d ≤ b % d := by
      have ha := Nat.div_add_mod a d
      have hb := Nat.div_add_mod b d
      rw [heq] at ha
      omega
    unfold roundHalfEven
    grind

theorem div_le_div_of_mul_le {a' d' : ℕ} (hd : 0 < d) (hd' : 0 < d') (h : a * d' ≤ a' * d) : a / d ≤ a' / d' := by
  rw [← Nat.mul_div_mul_right a d hd', ← Nat.mul_div_mul_right a' d' hd, Nat.mul_comm d' d]
  exact Nat.div_le_div_right h

theorem roundHalfEven_le_of_mul_le {a' d' : ℕ} (hd : 0 < d) (hd' : 0 < d') (h : a * d' ≤ a' * d) :
    roundHalfEven a d ≤ roundHalfEven a' d' := by
  rw [← roundHalfEven_mul_right hd', ← roundHalfEven_mul_right (a := a') hd, Nat.mul_comm d' d]
  exact roundHalfEven_mono h

end Integer

/-! ## The nearest double -/

section Nearest

variable {num den num' den' : ℕ}

/-- How often the significand of a rounded quotient is doubled. -/
def shiftFor (num den : ℕ) : ℕ := Nat.log2 (num * unitsPerOne / den) - 52

/-- The significand of a rounded quotient. -/
def significandFor (num den : ℕ) : ℕ := roundHalfEven (num * unitsPerOne) (den * 2 ^ shiftFor num den)

theorem nearest_eq (negative : Bool) (num den : ℕ) : nearest negative num den =
    ofMagnitude negative (min (shiftFor num den * 0x10000000000000 + significandFor num den) infinityBits) := by
  simp only [nearest, significandFor, shiftFor, Nat.shiftLeft_eq]

theorem magnitude_ofMagnitude {negative : Bool} {m : ℕ} (h : m ≤ infinityBits) : (ofMagnitude negative m).magnitude = m := by
  have hm : m < 2 ^ 63 := h.trans_lt (by decide)
  cases negative <;> simp only [ofMagnitude, magnitude, Bool.false_eq_true, if_false, if_true, Nat.toUInt64_eq,
    UInt64.toNat_ofNat'] <;> omega

theorem magnitude_nearest (negative : Bool) (num den : ℕ) : (nearest negative num den).magnitude =
    min (shiftFor num den * 0x10000000000000 + significandFor num den) infinityBits := by
  rw [nearest_eq, magnitude_ofMagnitude (Nat.min_le_right _ _)]

theorem significandFor_le (num : ℕ) (hden : 0 < den) : significandFor num den ≤ 2 ^ 53 := by
  refine (roundHalfEven_le _ _).trans ((Nat.div_lt_iff_lt_mul (Nat.mul_pos hden (Nat.two_pow_pos _))).2 ?_)
  have hlog : num * unitsPerOne / den < 2 ^ (53 + shiftFor num den) := by
    refine Nat.lt_log2_self.trans_le (Nat.pow_le_pow_right (by decide) ?_)
    unfold shiftFor
    omega
  calc num * unitsPerOne < 2 ^ (53 + shiftFor num den) * den := (Nat.div_lt_iff_lt_mul hden).1 hlog
    _ = 2 ^ 53 * (den * 2 ^ shiftFor num den) := by rw [Nat.pow_add]; ac_rfl

theorem le_significandFor (hden : 0 < den) (hshift : 0 < shiftFor num den) : 2 ^ 52 ≤ significandFor num den := by
  refine ((Nat.le_div_iff_mul_le (Nat.mul_pos hden (Nat.two_pow_pos _))).2 ?_).trans (div_le_roundHalfEven _ _)
  have hne : num * unitsPerOne / den ≠ 0 := by
    intro hzero
    simp [shiftFor, hzero] at hshift
  have hlog : 2 ^ (52 + shiftFor num den) ≤ num * unitsPerOne / den := by
    refine (Nat.pow_le_pow_right (by decide) ?_).trans (Nat.log2_self_le hne)
    unfold shiftFor at hshift ⊢
    omega
  calc 2 ^ 52 * (den * 2 ^ shiftFor num den) = 2 ^ (52 + shiftFor num den) * den := by rw [Nat.pow_add]; ac_rfl
    _ ≤ num * unitsPerOne := (Nat.le_div_iff_mul_le hden).1 hlog

theorem scaled_mono (h : num * den' ≤ num' * den) : num * unitsPerOne * den' ≤ num' * unitsPerOne * den := by
  rw [Nat.mul_right_comm, Nat.mul_right_comm num']
  exact Nat.mul_le_mul_right _ h

/-- A greater quotient is rounded to a greater number. -/
theorem nearest_mono (negative negative' : Bool) (hden : 0 < den) (hden' : 0 < den') (h : num * den' ≤ num' * den) :
    (nearest negative num den).magnitude ≤ (nearest negative' num' den').magnitude := by
  have hscaled := scaled_mono h
  have hshift : shiftFor num den ≤ shiftFor num' den' := by
    unfold shiftFor
    rw [Nat.log2_eq_log_two, Nat.log2_eq_log_two]
    exact Nat.sub_le_sub_right (Nat.log_mono_right (div_le_div_of_mul_le hden hden' hscaled)) 52
  rw [magnitude_nearest, magnitude_nearest]
  refine min_le_min ?_ le_rfl
  rcases Nat.lt_or_eq_of_le hshift with hlt | heq
  · -- in a lower binade, which ends where the next one begins
    have hupper := significandFor_le num hden
    have hlower := le_significandFor hden' (Nat.zero_lt_of_lt hlt)
    omega
  · rw [heq]
    refine Nat.add_le_add_left ?_ _
    unfold significandFor
    rw [heq]
    have hpow := Nat.two_pow_pos (shiftFor num' den')
    refine roundHalfEven_le_of_mul_le (Nat.mul_pos hden hpow) (Nat.mul_pos hden' hpow) ?_
    rw [← Nat.mul_assoc, ← Nat.mul_assoc]
    exact Nat.mul_le_mul_right _ hscaled

end Nearest

/-! ## Doubles in order of their magnitudes -/

section Order

variable {x y z z' : Binary64}

theorem magnitude_lt (x : Binary64) : x.magnitude < 2 ^ 63 := Nat.mod_lt _ (by decide)

theorem isFinite_iff : x.isFinite = true ↔ x.magnitude < infinityBits := by
  have hlt := x.magnitude_lt
  simp only [isFinite, exponentField, infinityBits, bne_iff_ne, ne_eq]
  omega

theorem isFinite_of_le (h : x.magnitude ≤ y.magnitude) (hy : y.isFinite = true) : x.isFinite = true :=
  isFinite_iff.2 (h.trans_lt (isFinite_iff.1 hy))

theorem isFinite_negate (h : x.isFinite = true) : x.negate.isFinite = true := by
  have hmagnitude := isFinite_iff.1 h
  rw [isFinite_iff, negate, magnitude_ofMagnitude hmagnitude.le]
  exact hmagnitude

theorem fractionField_lt (x : Binary64) : x.fractionField < 2 ^ 52 := Nat.mod_lt _ (by decide)

theorem units_eq (x : Binary64) : x.units = x.significand * 2 ^ x.shift := Nat.shiftLeft_eq _ _

/-- Numbers of a binade lie below the next one. -/
theorem units_lt (x : Binary64) : x.units < 2 ^ (52 + x.exponentField) := by
  have hfraction := x.fractionField_lt
  rw [units_eq]
  unfold significand shift
  split
  · rename_i hzero
    simpa [hzero] using hfraction
  · rename_i hne
    calc (0x10000000000000 + x.fractionField) * 2 ^ (x.exponentField - 1)
        < 2 ^ 53 * 2 ^ (x.exponentField - 1) := Nat.mul_lt_mul_of_pos_right (by omega) (Nat.two_pow_pos _)
      _ = 2 ^ (52 + x.exponentField) := by
        rw [← Nat.pow_add]
        congr 1
        omega

theorem le_units_of_ne_zero (h : x.exponentField ≠ 0) : 2 ^ (51 + x.exponentField) ≤ x.units := by
  rw [units_eq, significand, if_neg h, shift]
  calc 2 ^ (51 + x.exponentField) = 2 ^ 52 * 2 ^ (x.exponentField - 1) := by
        rw [← Nat.pow_add]
        congr 1
        omega
    _ ≤ (0x10000000000000 + x.fractionField) * 2 ^ (x.exponentField - 1) := Nat.mul_le_mul_right _ (by omega)

theorem units_mono (h : x.magnitude ≤ y.magnitude) : x.units ≤ y.units := by
  rcases Nat.lt_or_eq_of_le (Nat.div_le_div_right (c := 0x10000000000000) h) with hlt | heq
  · have hlt : x.exponentField < y.exponentField := hlt
    calc x.units ≤ 2 ^ (52 + x.exponentField) := x.units_lt.le
      _ ≤ 2 ^ (51 + y.exponentField) := Nat.pow_le_pow_right (by decide) (by omega)
      _ ≤ y.units := le_units_of_ne_zero (Nat.ne_of_gt (Nat.zero_lt_of_lt hlt))
  · have heq : x.exponentField = y.exponentField := heq
    have hfraction : x.fractionField ≤ y.fractionField := by
      simp only [exponentField, fractionField] at heq ⊢
      omega
    rw [units_eq, units_eq, shift, shift, significand, significand, heq]
    refine Nat.mul_le_mul_right _ ?_
    split <;> omega

theorem unitsPerOne_pos : 0 < unitsPerOne := by decide +kernel

theorem timesMagnitude_mono (hx : x.magnitude ≤ y.magnitude) (hz : z.magnitude ≤ z'.magnitude) :
    (x.timesMagnitude z).magnitude ≤ (y.timesMagnitude z').magnitude := by
  have hunits := Nat.mul_pos unitsPerOne_pos unitsPerOne_pos
  exact nearest_mono _ _ hunits hunits (Nat.mul_le_mul_right _ (Nat.mul_le_mul (units_mono hx) (units_mono hz)))

end Order

end TypeBundle.Binary64
