import Mathlib.Data.Nat.Notation
import TypeBundle.Number.Shortest
/-!
# What the shortest decimal is

The shortest decimal of a number lies among the reals that round to the number, or is made of its units
(`shortest_cases`). Zero lies there for no number but zero, so the shortest decimal of another number has a digit
that is not zero (`shortest_digits_pos`).
-/

namespace TypeBundle

/-- A decimal is the quotient of two naturals, this one above. -/
def Decimal.numerator (d : Decimal) : ℕ :=
  match d.exponent with
  | .ofNat e => d.digits * Nat.pow 10 e
  | .negSucc _ => d.digits

/-- A decimal is the quotient of two naturals, this one below. -/
def Decimal.denominator (d : Decimal) : ℕ :=
  match d.exponent with
  | .ofNat _ => 1
  | .negSucc e => Nat.pow 10 (e + 1)

namespace Binary64

variable {x : Binary64} {tie : TieRule}

/-- A decimal on a grid is one of the two neighbours of the number, and the interval holds it. -/
theorem holds_onGrid {exponent : Int} {d : Decimal} (h : onGrid? tie x exponent = some d) :
    x.interval.holds d.numerator d.denominator = true := by
  unfold onGrid? at h
  obtain ⟨digits, hdigits, rfl⟩ := Option.map_eq_some_iff.1 h
  clear h
  cases exponent with
  | ofNat e =>
    simp only [Decimal.numerator, Decimal.denominator] at hdigits ⊢
    generalize x.units * 1 / (unitsPerOne * Nat.pow 10 e) = c at hdigits
    generalize x.units * 1 % (unitsPerOne * Nat.pow 10 e) = r at hdigits
    generalize unitsPerOne * Nat.pow 10 e = den at hdigits
    grind
  | negSucc e =>
    simp only [Decimal.numerator, Decimal.denominator] at hdigits ⊢
    generalize x.units * Nat.pow 10 (e + 1) / (unitsPerOne * 1) = c at hdigits
    generalize x.units * Nat.pow 10 (e + 1) % (unitsPerOne * 1) = r at hdigits
    generalize unitsPerOne * 1 = den at hdigits
    grind

theorem holds_onGridsBelow {start : Int} {steps : ℕ} {d : Decimal} (h : onGridsBelow? tie x start steps = some d) :
    x.interval.holds d.numerator d.denominator = true := by
  induction steps generalizing start with
  | zero => cases h
  | succ steps ih =>
    unfold onGridsBelow? at h
    split at h
    · rename_i hgrid
      cases h
      exact holds_onGrid hgrid
    · exact ih h

/-- The shortest decimal of a number rounds to the number. -/
theorem shortest_cases (tie : TieRule) (hx : x.isZero = false) :
    x.interval.holds (x.shortest tie).numerator (x.shortest tie).denominator = true ∨
      x.shortest tie = ⟨x.units, -1074⟩ := by
  unfold shortest
  rw [if_neg (by simp [hx])]
  cases hgrids : onGridsBelow? tie x 310 (310 + 1074) with
  | none => exact .inr rfl
  | some d => exact .inl (holds_onGridsBelow hgrids)

theorem significand_pos (hx : x.isZero = false) : 0 < x.significand := by
  have hmagnitude : x.magnitude ≠ 0 := by simpa [isZero] using hx
  unfold significand
  split
  · rename_i hexponent
    simp only [exponentField, fractionField] at hexponent ⊢
    omega
  · omega

theorem le_units (hx : x.isZero = false) : Nat.pow 2 x.shift ≤ x.units := by
  rw [units, Nat.shiftLeft_eq]
  exact Nat.le_mul_of_pos_left _ (significand_pos hx)

theorem interval_low_pos (hx : x.isZero = false) : 0 < x.interval.low := by
  have hunits := le_units hx
  have hgap : 0 < Nat.pow 2 x.shift := Nat.two_pow_pos _
  simp only [interval]
  split <;> omega

theorem shortest_digits_pos (tie : TieRule) (hx : x.isZero = false) : 0 < (x.shortest tie).digits := by
  rcases shortest_cases tie hx with h | h
  · refine Nat.pos_of_ne_zero fun hzero => ?_
    have hnumerator : (x.shortest tie).numerator = 0 := by
      unfold Decimal.numerator
      split <;> simp_all
    have hdenominator : 0 < (x.shortest tie).denominator := by
      unfold Decimal.denominator
      split
      · exact Nat.one_pos
      · exact Nat.pow_pos (by decide)
    have hlow := Nat.mul_pos (interval_low_pos hx) hdenominator
    rw [hnumerator] at h
    unfold Interval.holds at h
    split at h <;> simp only [Nat.zero_mul, Bool.and_eq_true, decide_eq_true_eq] at h <;> omega
  · rw [h]
    have hgap : 0 < Nat.pow 2 x.shift := Nat.two_pow_pos _
    exact Nat.lt_of_lt_of_le hgap (le_units hx)

end Binary64

end TypeBundle
