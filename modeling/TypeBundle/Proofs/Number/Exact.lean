import TypeBundle.Proofs.Number.Range
/-!
# Shortest decimals are read as their numbers

What the interval of a number holds is rounded to the number (`nearest_of_holds`), and the shortest decimal of a number
is in its interval. So the number is read from its shortest decimal, however many zeros are put after its digits
(`ofDecimal_of_holds`).
-/

namespace TypeBundle

/-! ## Decimals as quotients -/

namespace Decimal

theorem numerator_eq (d : Decimal) : d.numerator = d.digits * 10 ^ d.exponent.toNat := by
  unfold numerator
  split <;> simp [*]

theorem denominator_eq (d : Decimal) : d.denominator = 10 ^ (-d.exponent).toNat := by
  unfold denominator
  split <;> simp [*]

theorem denominator_pos (d : Decimal) : 0 < d.denominator := by
  rw [denominator_eq]
  exact Nat.pow_pos (by decide)

/-- Zeros are put after the digits and taken off by the exponent. -/
theorem numerator_zeros (d : Decimal) (zeros : ℕ) :
    d.numerator * (mk (d.digits * 10 ^ zeros) (d.exponent - zeros)).denominator =
      (mk (d.digits * 10 ^ zeros) (d.exponent - zeros)).numerator * d.denominator := by
  simp only [numerator_eq, denominator_eq, Nat.mul_assoc, ← Nat.pow_add]
  congr 2
  omega

end Decimal

namespace Binary64

/-! ## The nearest integer -/

/-- An integer is the nearest one if it is no further away than a half, and even where it is as far as that. -/
theorem roundHalfEven_eq {a d m : ℕ} (hlow : 2 * (m * d) ≤ 2 * a + d) (hhigh : 2 * a ≤ 2 * (m * d) + d) (hd : 0 < d)
    (htie : 2 * (m * d) = 2 * a + d ∨ 2 * a = 2 * (m * d) + d → m % 2 = 0) : roundHalfEven a d = m := by
  have hdiv := Nat.div_add_mod a d
  have hmod := Nat.mod_lt a hd
  unfold roundHalfEven
  generalize a / d = q at hdiv ⊢
  generalize a % d = r at hdiv hmod ⊢
  rw [Nat.mul_comm d q] at hdiv
  have hq : m = q ∨ m = q + 1 := by
    rcases Nat.lt_trichotomy m q with hlt | heq | hgt
    · have hle : (m + 1) * d ≤ q * d := Nat.mul_le_mul_right d hlt
      rw [Nat.add_mul] at hle
      omega
    · exact .inl heq
    · rcases Nat.lt_or_eq_of_le hgt with hlt | heq
      · have hle : (q + 1 + 1) * d ≤ m * d := Nat.mul_le_mul_right d hlt
        rw [Nat.add_mul, Nat.add_mul] at hle
        omega
      · exact .inr heq.symm
  rcases hq with rfl | rfl
  · grind
  · rw [Nat.add_mul] at hlow hhigh htie
    grind

/-! ## The nearest double -/

variable {x : Binary64} {num den : ℕ}

theorem magnitude_eq_shift (x : Binary64) : x.magnitude = x.shift * 0x10000000000000 + x.significand := by
  have hfields : x.magnitude = x.exponentField * 0x10000000000000 + x.fractionField := by
    simp only [exponentField, fractionField]
    omega
  rw [hfields, shift, significand]
  generalize x.fractionField = fraction
  generalize x.exponentField = exponent
  cases exponent with
  | zero => simp
  | succ e =>
    rw [if_neg (Nat.succ_ne_zero e), Nat.add_sub_cancel, Nat.add_mul, Nat.one_mul, Nat.add_assoc]

theorem shiftFor_eq {s : ℕ} (hden : 0 < den) (hhigh : num * unitsPerOne < 2 ^ (53 + s) * den)
    (hlow : s = 0 ∨ 2 ^ (52 + s) * den ≤ num * unitsPerOne) : shiftFor num den = s := by
  have hlog : Nat.log2 (num * unitsPerOne / den) < 53 + s := by
    rcases Nat.eq_zero_or_pos (num * unitsPerOne / den) with hzero | hpos
    · rw [hzero]
      simp
    · exact (Nat.log2_lt (Nat.ne_of_gt hpos)).2 ((Nat.div_lt_iff_lt_mul hden).2 hhigh)
  unfold shiftFor
  rcases hlow with rfl | hlow
  · omega
  · have hle : 2 ^ (52 + s) ≤ num * unitsPerOne / den := (Nat.le_div_iff_mul_le hden).2 hlow
    have hne : num * unitsPerOne / den ≠ 0 := Nat.ne_of_gt (Nat.lt_of_lt_of_le (Nat.two_pow_pos _) hle)
    have := (Nat.le_log2 hne).2 hle
    omega

/-- The quotient is near enough to the number to be rounded to it, in units of the number: no further away than half a
step, or a quarter where the steps below are half as wide, and nearer than that if the significand is odd. -/
structure Near (x : Binary64) (num den : ℕ) : Prop where
  low : 2 * (x.significand * (den * 2 ^ x.shift)) ≤ 2 * (num * unitsPerOne) + den * 2 ^ x.shift
  lowBoundary : x.fractionField = 0 → 1 < x.exponentField →
    4 * (x.significand * (den * 2 ^ x.shift)) ≤ 4 * (num * unitsPerOne) + den * 2 ^ x.shift
  high : 2 * (num * unitsPerOne) ≤ 2 * (x.significand * (den * 2 ^ x.shift)) + den * 2 ^ x.shift
  tie : x.significand % 2 ≠ 0 →
    2 * (x.significand * (den * 2 ^ x.shift)) < 2 * (num * unitsPerOne) + den * 2 ^ x.shift ∧
    2 * (num * unitsPerOne) < 2 * (x.significand * (den * 2 ^ x.shift)) + den * 2 ^ x.shift

theorem bounds_of_holds {i : Interval} (h : i.holds num den = true) :
    i.low * den ≤ num * i.scale ∧ num * i.scale ≤ i.high * den ∧
      (i.closed = false → i.low * den < num * i.scale ∧ num * i.scale < i.high * den) := by
  unfold Interval.holds at h
  split at h <;> simp only [Bool.and_eq_true, decide_eq_true_eq] at h
  · rename_i hclosed
    exact ⟨h.1, h.2, fun hopen => by simp [hclosed] at hopen⟩
  · exact ⟨h.1.le, h.2.le, fun _ => h⟩

theorem near_of_holds (hx : x.isZero = false) (h : x.interval.holds num den = true) : x.Near num den := by
  have hgap : Nat.pow 2 x.shift ≤ x.units := le_units hx
  have hunits : x.units * den = x.significand * (den * 2 ^ x.shift) := by
    rw [units_eq]
    ring
  have hgapDen : Nat.pow 2 x.shift * den ≤ x.units * den := Nat.mul_le_mul_right den hgap
  have hstep : Nat.pow 2 x.shift * den = den * 2 ^ x.shift := Nat.mul_comm _ _
  have hscaled : num * x.interval.scale = 4 * (num * unitsPerOne) := by
    simp only [interval]
    ring
  have hhigh : x.interval.high * den = 4 * (x.significand * (den * 2 ^ x.shift)) + 2 * (den * 2 ^ x.shift) := by
    simp only [interval]
    rw [Nat.add_mul, Nat.mul_assoc, Nat.mul_assoc, hunits, hstep]
  have hlow : x.interval.low * den = 4 * (x.significand * (den * 2 ^ x.shift)) -
      if x.fractionField = 0 ∧ 1 < x.exponentField then den * 2 ^ x.shift else 2 * (den * 2 ^ x.shift) := by
    simp only [interval]
    split <;> simp only [Nat.sub_mul, Nat.mul_assoc, hunits, hstep]
  have hclosed : x.significand % 2 ≠ 0 → x.interval.closed = false := fun hodd => by simpa [interval] using hodd
  obtain ⟨hbelow, habove, hopen⟩ := bounds_of_holds h
  rw [hscaled, hhigh] at habove
  rw [hscaled, hlow] at hbelow
  rw [hscaled, hhigh, hlow] at hopen
  rw [hunits, hstep] at hgapDen
  constructor
  · split at hbelow <;> omega
  · intro hfraction hexponent
    rw [if_pos ⟨hfraction, hexponent⟩] at hbelow
    omega
  · omega
  · intro hodd
    have hstrict := hopen (hclosed hodd)
    split at hstrict <;> omega

theorem significand_of_shift_pos (h : 0 < x.shift) : x.significand = 0x10000000000000 + x.fractionField := by
  rw [significand, if_neg]
  intro hzero
  simp [shift, hzero] at h

/-- What is near to a number is rounded to its magnitude. -/
theorem magnitude_of_near (hfinite : x.isFinite = true) (hden : 0 < den) (h : x.Near num den) (negative : Bool) :
    (nearest negative num den).magnitude = x.magnitude := by
  have hstep : 0 < den * 2 ^ x.shift := Nat.mul_pos hden (Nat.two_pow_pos _)
  have hmin := (isFinite_iff.1 hfinite).le
  have hsignificand := x.significand_lt
  have hbelow : num * unitsPerOne < 2 ^ 53 * (den * 2 ^ x.shift) := by
    have hle : x.significand * (den * 2 ^ x.shift) ≤ (2 ^ 53 - 1) * (den * 2 ^ x.shift) :=
      Nat.mul_le_mul_right _ (by omega)
    have hhigh := h.high
    omega
  rw [magnitude_nearest, magnitude_eq_shift]
  rw [magnitude_eq_shift] at hmin
  suffices heq : shiftFor num den * 0x10000000000000 + significandFor num den =
      x.shift * 0x10000000000000 + x.significand by rw [heq, Nat.min_eq_left hmin]
  by_cases hbinade : x.shift = 0 ∨ 2 ^ 52 * (den * 2 ^ x.shift) ≤ num * unitsPerOne
  · -- the quotient is in the binade of the number
    have hshift : shiftFor num den = x.shift := by
      refine shiftFor_eq hden ?_ (hbinade.imp id fun hle => ?_)
      · calc num * unitsPerOne < 2 ^ 53 * (den * 2 ^ x.shift) := hbelow
          _ = 2 ^ (53 + x.shift) * den := by rw [Nat.pow_add]; ring
      · calc 2 ^ (52 + x.shift) * den = 2 ^ 52 * (den * 2 ^ x.shift) := by rw [Nat.pow_add]; ring
          _ ≤ num * unitsPerOne := hle
    rw [significandFor, hshift, roundHalfEven_eq h.low h.high hstep fun htie => ?_]
    by_contra hodd
    have := h.tie hodd
    omega
  · -- the number is the least of its binade, and the quotient is in the one below
    obtain ⟨hpos, hlt⟩ := not_or.1 hbinade
    have hlt := Nat.lt_of_not_le hlt
    have hpos : 0 < x.shift := Nat.pos_of_ne_zero hpos
    obtain ⟨s, hs⟩ := Nat.exists_eq_add_one_of_ne_zero (Nat.ne_of_gt hpos)
    have hleast : x.significand = 2 ^ 52 := by
      have hnormal := significand_of_shift_pos hpos
      by_contra hne
      have hle : (2 ^ 52 + 1) * (den * 2 ^ x.shift) ≤ x.significand * (den * 2 ^ x.shift) :=
        Nat.mul_le_mul_right _ (by omega)
      have hlow := h.low
      omega
    have hlow : 4 * (2 ^ 52 * (den * 2 ^ x.shift)) ≤ 4 * (num * unitsPerOne) + den * 2 ^ x.shift := by
      have hnormal := significand_of_shift_pos hpos
      have hboundary := h.lowBoundary (by omega) (by unfold shift at hpos; omega)
      rwa [hleast] at hboundary
    have hhalf : den * 2 ^ x.shift = 2 * (den * 2 ^ s) := by
      rw [hs, Nat.pow_succ]
      ring
    rw [hhalf] at hlow hlt
    have hshift : shiftFor num den = s := by
      refine shiftFor_eq hden ?_ (.inr ?_)
      · calc num * unitsPerOne < 2 ^ 52 * (2 * (den * 2 ^ s)) := hlt
          _ = 2 ^ (53 + s) * den := by rw [Nat.pow_add]; ring
      · calc 2 ^ (52 + s) * den = 2 ^ 52 * (den * 2 ^ s) := by rw [Nat.pow_add]; ring
          _ ≤ num * unitsPerOne := by omega
    rw [significandFor, hshift, hs, hleast, roundHalfEven_eq (m := 2 ^ 53) (by omega) (by omega)
      (Nat.mul_pos hden (Nat.two_pow_pos _)) fun _ => by decide]
    omega

/-- What the interval of a number holds is rounded to the number. -/
theorem nearest_of_holds (hx : x.isZero = false) (hfinite : x.isFinite = true) (hden : 0 < den)
    (h : x.interval.holds num den = true) (negative : Bool) :
    nearest negative num den = ofMagnitude negative x.magnitude := by
  have hmagnitude := magnitude_of_near hfinite hden (near_of_holds hx h) negative
  rw [magnitude_nearest] at hmagnitude
  rw [nearest_eq, hmagnitude]

/-! ## Shortest decimals -/

/-- On the finest grid the number itself is a decimal. -/
theorem isSome_onGrid_finest (tie : TieRule) (hx : x.isZero = false) : (onGrid? tie x (-1074)).isSome = true := by
  have hpow : Nat.pow 10 (1073 + 1) = unitsPerOne * 5 ^ 1074 := by decide +kernel
  have hquotient : x.units * Nat.pow 10 (1073 + 1) / (unitsPerOne * 1) = x.units * 5 ^ 1074 := by
    rw [hpow, Nat.mul_one, Nat.mul_left_comm, Nat.mul_div_cancel_left _ unitsPerOne_pos]
  have hpoint : x.units * 5 ^ 1074 * 1 * x.interval.scale = 4 * x.units * Nat.pow 10 (1073 + 1) := by
    rw [hpow]
    simp only [interval]
    ring
  have hpos : 0 < Nat.pow 10 (1073 + 1) := Nat.pow_pos (by decide)
  have hlow := interval_low_le hx
  have hstep : 0 < 2 ^ x.shift := Nat.two_pow_pos _
  have hhigh : x.interval.high = 4 * x.units + 2 * 2 ^ x.shift := rfl
  have hholds : x.interval.holds (x.units * 5 ^ 1074 * 1) (Nat.pow 10 (1073 + 1)) = true := by
    refine Interval.holds_of_lt ?_ ?_ <;> rw [hpoint]
    · exact Nat.mul_lt_mul_of_pos_right (by omega) hpos
    · exact Nat.mul_lt_mul_of_pos_right (by omega) hpos
  have hexponent : (-1074 : ℤ) = Int.negSucc 1073 := rfl
  rw [hexponent]
  simp only [onGrid?, hquotient, hholds, Option.isSome_map]
  clear hpow hquotient hpoint hpos hlow hstep hhigh hholds
  generalize x.units * Nat.pow 10 (1073 + 1) % (unitsPerOne * 1) = r
  generalize x.interval.holds ((x.units * 5 ^ 1074 + 1) * 1) (Nat.pow 10 (1073 + 1)) = upper
  generalize x.units * 5 ^ 1074 = c
  generalize unitsPerOne * 1 = den
  grind

/-- The interval of a number holds its shortest decimal. -/
theorem holds_shortest (tie : TieRule) (hx : x.isZero = false) :
    x.interval.holds (x.shortest tie).numerator (x.shortest tie).denominator = true := by
  obtain ⟨d, hd, -⟩ : ∃ d, onGridsBelow? tie x 310 (310 + 1074) = some d ∧ -1074 ≤ d.exponent :=
    le_exponent_onGridsBelow (isSome_onGrid_finest tie hx) (by decide) (by decide)
  have hshortest : x.shortest tie = d := by
    unfold shortest
    rw [if_neg (by simp [hx]), hd]
    rfl
  rw [hshortest]
  exact holds_onGridsBelow hd

/-! ## Decimals -/

theorem Interval.holds_congr {i : Interval} {num' den' : ℕ} (hden : 0 < den) (hden' : 0 < den')
    (heq : num * den' = num' * den) : i.holds num den = i.holds num' den' := by
  have hbelow : i.low * den * den' = i.low * den' * den := by ring
  have hpoint : num * i.scale * den' = num' * i.scale * den := by
    rw [Nat.mul_right_comm, heq, Nat.mul_right_comm]
  have habove : i.high * den * den' = i.high * den' * den := by ring
  have hle {a b a' b' : ℕ} (ha : a * den' = a' * den) (hb : b * den' = b' * den) : a ≤ b ↔ a' ≤ b' := by
    rw [← Nat.mul_le_mul_right_iff hden', ha, hb, Nat.mul_le_mul_right_iff hden]
  have hlt {a b a' b' : ℕ} (ha : a * den' = a' * den) (hb : b * den' = b' * den) : a < b ↔ a' < b' := by
    rw [← Nat.mul_lt_mul_right hden', ha, hb, Nat.mul_lt_mul_right hden]
  simp only [holds, hle hbelow hpoint, hle hpoint habove, hlt hbelow hpoint, hlt hpoint habove]

theorem digits_pos_of_holds (hx : x.isZero = false) {d : Decimal}
    (h : x.interval.holds d.numerator d.denominator = true) : 0 < d.digits := by
  refine Nat.pos_of_ne_zero fun hzero => ?_
  have hnumerator : d.numerator = 0 := by rw [Decimal.numerator_eq, hzero, Nat.zero_mul]
  have hlow := Nat.mul_pos (interval_low_pos hx) d.denominator_pos
  obtain ⟨hbelow, -⟩ := bounds_of_holds h
  rw [hnumerator, Nat.zero_mul] at hbelow
  omega

theorem interval_scale (x : Binary64) : x.interval.scale = 2 ^ 1076 := by
  simp only [interval, unitsPerOne]
  decide +kernel

/-- No finite number is near `10 ^ 401` or above it. -/
theorem exponent_le_of_holds (hfinite : x.isFinite = true) {digits e : ℕ} (hdigits : 0 < digits)
    (h : x.interval.holds (digits * 10 ^ e) 1 = true) : e ≤ 400 := by
  by_contra hlt
  obtain ⟨-, habove, -⟩ := bounds_of_holds h
  rw [interval_scale, Nat.mul_one] at habove
  have hexponent : x.exponentField ≤ 2046 := by
    have hlt := isFinite_iff.1 hfinite
    simp only [infinityBits, exponentField] at hlt ⊢
    omega
  have hhigh : x.interval.high ≤ 2 ^ 55 * 2 ^ 2045 := by
    have hsignificand := x.significand_lt
    rw [high_eq]
    refine Nat.mul_le_mul (by omega) (Nat.pow_le_pow_right (by decide) ?_)
    unfold shift
    omega
  have hlarge : 10 ^ 401 ≤ digits * 10 ^ e := calc
    10 ^ 401 ≤ 10 ^ e := Nat.pow_le_pow_right (by decide) (by omega)
    _ ≤ digits * 10 ^ e := Nat.le_mul_of_pos_left _ hdigits
  have hle : 10 ^ 401 * 2 ^ 1076 ≤ 2 ^ 55 * 2 ^ 2045 :=
    ((Nat.mul_le_mul_right _ hlarge).trans habove).trans hhigh
  exact absurd hle (by decide +kernel)

/-- No number other than zero is near a decimal whose first digit is 400 places after the point. -/
theorem exponent_le_log_of_holds (hx : x.isZero = false) {digits e : ℕ}
    (h : x.interval.holds digits (10 ^ e) = true) : e ≤ Nat.log2 digits + 400 := by
  by_contra hlt
  obtain ⟨hbelow, -⟩ := bounds_of_holds h
  rw [interval_scale] at hbelow
  have hlow : 10 ^ e ≤ digits * 2 ^ 1076 :=
    (Nat.le_mul_of_pos_left _ (interval_low_pos hx)).trans hbelow
  have hlog : digits < 2 ^ (Nat.log2 digits + 1) := Nat.lt_log2_self
  have hpow : 2 ^ Nat.log2 digits * 10 ^ 401 ≤ 10 ^ e := calc
    2 ^ Nat.log2 digits * 10 ^ 401 ≤ 10 ^ Nat.log2 digits * 10 ^ 401 :=
      Nat.mul_le_mul_right _ (Nat.pow_le_pow_left (by decide) _)
    _ = 10 ^ (Nat.log2 digits + 401) := (Nat.pow_add _ _ _).symm
    _ ≤ 10 ^ e := Nat.pow_le_pow_right (by decide) (by omega)
  have hchain : 2 ^ Nat.log2 digits * 10 ^ 401 < 2 ^ Nat.log2 digits * (2 * 2 ^ 1076) := calc
    2 ^ Nat.log2 digits * 10 ^ 401 ≤ digits * 2 ^ 1076 := hpow.trans hlow
    _ < 2 ^ (Nat.log2 digits + 1) * 2 ^ 1076 := Nat.mul_lt_mul_of_pos_right hlog (Nat.two_pow_pos _)
    _ = 2 ^ Nat.log2 digits * (2 * 2 ^ 1076) := by rw [Nat.pow_succ, Nat.mul_assoc]
  exact absurd (Nat.lt_of_mul_lt_mul_left hchain) (by decide +kernel)

/-- A decimal that the interval of a number holds is read as the number. -/
theorem ofDecimal_of_holds (hx : x.isZero = false) (hfinite : x.isFinite = true) {digits : ℕ} {exponent : ℤ}
    (h : x.interval.holds (Decimal.mk digits exponent).numerator (Decimal.mk digits exponent).denominator = true)
    (negative : Bool) : ofDecimal negative digits exponent = ofMagnitude negative x.magnitude := by
  have hdigits : 0 < digits := digits_pos_of_holds hx h
  unfold ofDecimal
  rw [if_neg (Nat.ne_of_gt hdigits)]
  cases exponent with
  | ofNat e =>
    have he : e ≤ 400 := exponent_le_of_holds hfinite hdigits h
    change (if 400 < e then _ else _) = _
    rw [if_neg (Nat.not_lt.2 he)]
    exact nearest_of_holds hx hfinite Nat.one_pos h negative
  | negSucc e =>
    have he : e + 1 ≤ Nat.log2 digits + 400 := exponent_le_log_of_holds hx h
    change (if Nat.log2 digits + 400 < e + 1 then _ else _) = _
    rw [if_neg (Nat.not_lt.2 he)]
    exact nearest_of_holds hx hfinite (Nat.pow_pos (by decide)) h negative

/-- Zeros after the digits make no difference. -/
theorem ofDecimal_shortest_zeros (hx : x.isZero = false) (hfinite : x.isFinite = true) (tie : TieRule) (zeros : ℕ)
    (negative : Bool) :
    ofDecimal negative ((x.shortest tie).digits * 10 ^ zeros) ((x.shortest tie).exponent - zeros) =
      ofMagnitude negative x.magnitude := by
  refine ofDecimal_of_holds hx hfinite ?_ negative
  rw [← Interval.holds_congr (Decimal.denominator_pos _) (Decimal.denominator_pos _)
    (Decimal.numerator_zeros (x.shortest tie) zeros)]
  exact holds_shortest tie hx

end Binary64

end TypeBundle
