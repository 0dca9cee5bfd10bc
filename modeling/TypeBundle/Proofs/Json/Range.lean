import TypeBundle.Proofs.Json.Tree
import TypeBundle.Proofs.Number.Range
/-!
# Numbers are read from their texts

Not every number is read as itself, since reading rounds twice. But each is read as some number: no text of a double
is out of range when it is read (`Number.exists_value`).
-/

namespace TypeBundle.Json

open Binary64

namespace Numeral

/-! ## Reading digits -/

section Digits

variable {n : ℕ} {ds rest : List ℕ}

/-- The number with these digits after those of `n`. -/
def natFrom (n : ℕ) (ds : List ℕ) : ℕ := ds.foldl (fun n d => n * 10 + d) n

theorem natFrom_append (n : ℕ) (ds rest : List ℕ) : natFrom n (ds ++ rest) = natFrom (natFrom n ds) rest :=
  List.foldl_append

theorem le_natFrom (n : ℕ) (ds : List ℕ) : n * 10 ^ ds.length ≤ natFrom n ds := by
  induction ds generalizing n with
  | nil => simp [natFrom]
  | cons d ds ih =>
    calc n * 10 ^ (ds.length + 1) = n * 10 * 10 ^ ds.length := by ring
      _ ≤ (n * 10 + d) * 10 ^ ds.length := Nat.mul_le_mul_right _ (Nat.le_add_right _ _)
      _ ≤ natFrom (n * 10 + d) ds := ih _

theorem natFrom_lt {k : ℕ} (hds : ∀ d ∈ ds, d < 10) (hn : n < 10 ^ k) : natFrom n ds < 10 ^ (k + ds.length) := by
  induction ds generalizing n k with
  | nil => simpa [natFrom] using hn
  | cons d ds ih =>
    simp only [List.forall_mem_cons] at hds
    have hstep := ih (k := k + 1) hds.2 (n := n * 10 + d) (by rw [Nat.pow_succ]; omega)
    rwa [List.length_cons, Nat.add_comm ds.length, ← Nat.add_assoc]

/-- Digits are read as long as the number fits a word. -/
theorem readFitting_spec (hn : n < 2 ^ 64) (ds : List ℕ) : ∃ read, ds = read ++ (readFitting n ds).2 ∧
    (readFitting n ds).1 = natFrom n read ∧ natFrom n read < 2 ^ 64 := by
  induction ds generalizing n with
  | nil => exact ⟨[], rfl, rfl, hn⟩
  | cons d ds ih =>
    unfold readFitting
    split
    · exact ⟨[], rfl, rfl, hn⟩
    · rename_i hfits
      obtain ⟨read, hds, hnat, hlt⟩ := ih (n := n * 10 + d) (by omega)
      exact ⟨d :: read, congrArg _ hds, hnat, hlt⟩

/-- Digits of a number that fits a word are all read. -/
theorem readFitting_of_lt (h : natFrom n ds < 2 ^ 64) : readFitting n ds = (natFrom n ds, []) := by
  induction ds generalizing n with
  | nil => rfl
  | cons d ds ih =>
    have hle : (n * 10 + d) * 1 ≤ natFrom n (d :: ds) :=
      (Nat.mul_le_mul_left _ (Nat.pow_pos (by decide))).trans (le_natFrom (n * 10 + d) ds)
    unfold readFitting
    rw [if_neg (by omega)]
    exact ih h

end Digits

/-! ## Scaling what was read -/

section Scaling

variable {digits : ℕ} {exponent : ℤ}

theorem atMostWord_divideBySteps {x : Binary64} (h : x.AtMostWord) (steps : ℕ) : (divideBySteps x steps).AtMostWord := by
  induction steps generalizing x with
  | zero => exact h
  | succ steps ih =>
    unfold divideBySteps
    split
    · exact h
    · exact ih (h.over 308)

/-- What is in range is scaled to a finite double. -/
theorem exists_scaled (hword : digits < 2 ^ 64) (h : ∀ e : ℕ, exponent = e → Decimal.InRange (digits * 10 ^ e) 1 e) :
    ∃ x, scaled? digits exponent = some x ∧ x.isFinite = true := by
  cases exponent with
  | ofNat e =>
    have hrange := h e rfl
    by_cases he : e ≤ 308
    · exact ⟨_, by simp [scaled?, he, times_isFinite hword he hrange], times_isFinite hword he hrange⟩
    · obtain rfl := eq_zero_of_inRange (Nat.lt_of_not_le he) hrange
      have hzero : (nearest false 0 1).isZero = true := by decide +kernel
      exact ⟨nearest false 0 1, by simp [scaled?, he, hzero], by decide +kernel⟩
  | negSucc n =>
    exact ⟨_, rfl, ((atMostWord_divideBySteps (atMostWord_nearest hword) _).over _).isFinite⟩

end Scaling

/-! ## Whole numerals -/

section Numerals

theorem value?_of_float {t : Numeral} (hwhole : natOf t.whole < 0x8000000000000000) {x : Binary64}
    (hx : t.float? = some x) (hfinite : x.isFinite = true) : ∃ n, t.value? = some n := by
  have hfloat : t.float?.bind Number.ofFloat? = some (.float x hfinite) := by simp [hx, Number.ofFloat?, hfinite]
  unfold value?
  simp only [hfloat]
  split
  · exact ⟨_, rfl⟩
  · split <;> split
    · exact ⟨_, rfl⟩
    · exact ⟨_, dif_pos (by omega)⟩
    · exact ⟨_, rfl⟩
    · exact ⟨_, dif_pos (by omega)⟩

variable {d : Decimal} {whole fraction : List Char} {exponent? : Option ℤ}

theorem natFrom_zeros (n k : ℕ) : natFrom n (digitsOf (List.replicate k '0')) = n * 10 ^ k := by
  induction k generalizing n with
  | zero => simp [natFrom, digitsOf]
  | succ k ih =>
    calc natFrom n (digitsOf (List.replicate (k + 1) '0')) = natFrom (n * 10) (digitsOf (List.replicate k '0')) := rfl
      _ = n * 10 ^ (k + 1) := by rw [ih]; ring

/-- What is left of a decimal when some of its last digits have not been read is in range. -/
theorem inRange_of_le {m dropped e : ℕ} (hd : Decimal.InRange d.numerator d.denominator d.exponent)
    (hm : m * 10 ^ dropped ≤ d.digits) (he : d.exponent + dropped = e) : Decimal.InRange (m * 10 ^ e) 1 e := by
  obtain ⟨digits, exponent⟩ := d
  have hden : 0 < (Decimal.mk digits exponent).denominator := by
    cases exponent with
    | ofNat x => exact Nat.one_pos
    | negSucc x => exact Nat.pow_pos (by decide)
  have hle : m * 10 ^ e * (Decimal.mk digits exponent).denominator ≤ (Decimal.mk digits exponent).numerator := by
    cases exponent with
    | ofNat x =>
      obtain rfl : x + dropped = e := Int.ofNat.inj he
      calc m * 10 ^ (x + dropped) * 1 = m * 10 ^ dropped * 10 ^ x := by ring
        _ ≤ digits * 10 ^ x := Nat.mul_le_mul_right _ hm
    | negSucc x =>
      obtain rfl : e + (x + 1) = dropped := by
        simp only at he
        omega
      calc m * 10 ^ e * 10 ^ (x + 1) = m * 10 ^ (e + (x + 1)) := by ring
        _ ≤ digits := hm
  simp only [Decimal.InRange, Nat.mul_one]
  rcases hd with h | ⟨hexponent, h⟩
  · exact .inl (Nat.le_of_mul_le_mul_right (hle.trans h) hden)
  · refine .inr ⟨?_, Nat.le_of_mul_le_mul_right (hle.trans h) hden⟩
    simp only at he hexponent
    omega

theorem digit_lt {cs : List Char} (h : ∀ c ∈ cs, isDigit c = true) : ∀ d ∈ digitsOf cs, d < 10 := by
  intro d hd
  obtain ⟨c, hc, rfl⟩ := List.mem_map.1 hd
  have hdigit := h c hc
  simp only [isDigit, Bool.and_eq_true, decide_eq_true_eq, Char.le_def, UInt32.le_iff_toNat_le] at hdigit
  exact Nat.lt_of_le_of_lt (Nat.sub_le_sub_right hdigit.2 _) (by decide)

/-- The digits around the point are those of the decimal, and zeros after them. -/
theorem natFrom_layout {before after : ℕ}
    (h : whole ++ fraction = List.replicate before '0' ++ (Text.decimal d.digits ++ List.replicate after '0')) :
    natFrom (natFrom 0 (digitsOf whole)) (digitsOf fraction) = d.digits * 10 ^ after := by
  have hdecimal : natFrom 0 (digitsOf (Text.decimal d.digits)) = d.digits := natOf_decimal d.digits
  have happend : ∀ cs cs', digitsOf (cs ++ cs') = digitsOf cs ++ digitsOf cs' := fun _ _ => List.map_append
  rw [← natFrom_append, ← happend, h, happend, happend, natFrom_append, natFrom_append, natFrom_zeros 0, Nat.zero_mul,
    hdecimal, natFrom_zeros]

theorem exists_float (negative : Bool) (hd : Decimal.InRange d.numerator d.denominator d.exponent)
    (h : IsLayout (Text.decimal d.digits) d.exponent whole fraction exponent?)
    (hwhole : natFrom 0 (digitsOf whole) < 2 ^ 63) :
    ∃ x, (Numeral.mk negative (digitsOf whole) (digitsOf fraction) exponent?).float? = some x ∧ x.isFinite = true := by
  obtain ⟨before, after, hpadded, hexponent, hafter⟩ := h.padded
  have hwholeRead := readFitting_of_lt (hwhole.trans (by decide))
  obtain ⟨read, hread, hnat, hword⟩ := readFitting_spec (hwhole.trans (by decide)) (digitsOf fraction)
  rw [← hnat] at hword
  generalize hm : readFitting (natFrom 0 (digitsOf whole)) (digitsOf fraction) = result at hread hnat hword
  obtain ⟨m, dropped⟩ := result
  simp only at hread hnat hword
  -- the digits read and those dropped are the digits of the decimal, and zeros
  have hle : m * 10 ^ dropped.length ≤ d.digits * 10 ^ after := by
    rw [← natFrom_layout hpadded, hread, natFrom_append, ← hnat]
    exact le_natFrom m dropped
  have hlength : fraction.length = read.length + dropped.length := by
    simpa [digitsOf] using congrArg List.length hread
  have hrange : ∀ e : ℕ, -(read.length : ℤ) + exponent?.getD 0 = e → Decimal.InRange (m * 10 ^ e) 1 e := by
    intro e he
    cases exponent? with
    | none =>
      -- the point is in its place, so nothing is multiplied
      obtain rfl : e = 0 := by
        simp only [Option.getD_none] at he
        omega
      refine .inl ?_
      rw [Nat.pow_zero, Nat.mul_one, Nat.mul_one]
      exact hword.le.trans (Nat.pow_le_pow_right (by decide) (by decide))
    | some x =>
      obtain rfl := hafter rfl
      refine inRange_of_le hd (by simpa using hle) ?_
      simp only [Option.getD_some] at he hexponent
      omega
  obtain ⟨x, hx, hfinite⟩ := exists_scaled hword hrange
  have hunread : ((0 : ℕ) : ℤ) - ((digitsOf fraction).length - dropped.length : ℕ) = -(read.length : ℤ) := by
    simp only [digitsOf, List.length_map]
    omega
  cases negative with
  | false => exact ⟨x, by simp only [float?, hwholeRead, hm, List.length_nil, hunread, hx]; rfl, hfinite⟩
  | true =>
    refine ⟨x.negate, by simp only [float?, hwholeRead, hm, List.length_nil, hunread, hx]; rfl, isFinite_negate hfinite⟩

/-- The text of a decimal is read in range if the decimal is. -/
theorem exists_value_of_layout (negative : Bool) (hd : Decimal.InRange d.numerator d.denominator d.exponent)
    (h : IsLayout (Text.decimal d.digits) d.exponent whole fraction exponent?) :
    ∃ n, (Numeral.mk negative (digitsOf whole) (digitsOf fraction) exponent?).value? = some n := by
  have hwhole : natFrom 0 (digitsOf whole) < 2 ^ 63 := by
    refine (natFrom_lt (k := 0) (digit_lt h.isWhole.digits) (by decide)).trans_le ?_
    calc 10 ^ (0 + (digitsOf whole).length) ≤ 10 ^ 16 :=
          Nat.pow_le_pow_right (by decide) (by simpa [digitsOf] using h.short)
      _ ≤ 2 ^ 63 := by decide
  obtain ⟨x, hx, hfinite⟩ := exists_float negative hd h hwhole
  exact value?_of_float hwhole hx hfinite

end Numerals

end Numeral

/-- Every number is read from its text, as some number. -/
theorem Number.exists_value (n : Number) : ∃ m, n.numeral.value? = some m := by
  cases n with
  | integer n fits => exact ⟨_, Number.readsBack_integer n fits⟩
  | float x finite =>
    cases hx : x.isZero with
    | true =>
      rw [numeral, write, write_float finite, write_zero hx, sign_append_spell,
        Numeral.ofChars?_spell Numeral.isWhole_zero Numeral.isWhole_zero.digits]
      exact Option.isSome_iff_exists.1 (by cases x.isNegative <;> decide +kernel)
    | false =>
      obtain ⟨whole, fraction, exponent?, hspell, hlayout⟩ := magnitude_eq_spell hx
      rw [numeral, write, write_float finite, hspell, sign_append_spell,
        Numeral.ofChars?_spell hlayout.isWhole hlayout.digits]
      exact Numeral.exists_value_of_layout _ (shortest_inRange hx finite) hlayout

/-- The number as it is read from its text. -/
def Number.reread (n : Number) : Number := n.numeral.value?.getD n

theorem Number.value?_numeral (n : Number) : n.numeral.value? = some n.reread := by
  obtain ⟨m, hm⟩ := n.exists_value
  rw [reread, hm]
  rfl

end TypeBundle.Json
