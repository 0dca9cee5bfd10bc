import TypeBundle.Proofs.Json.Numeral
import TypeBundle.Proofs.Number.Shortest
/-!
# How doubles are spelled

JSON spells a finite double with the digits of its shortest decimal, and zeros to fill up to the point
(`magnitude_eq_spell`). So the text of every number is that of a numeral (`Number.exists_spells`).
-/

namespace TypeBundle.Json

open Numeral

/-! ## Layouts -/

/-- The digits around the point and the exponent are those of a decimal, up to zeros before its digits, and after them
if there is no exponent. -/
structure IsLayout (ds : List Char) (exponent : Int) (whole fraction : List Char) (exponent? : Option Int) : Prop where
  isWhole : IsWhole whole
  digits : ∀ c ∈ fraction, isDigit c = true
  short : whole.length ≤ 16
  marked : fraction ≠ [] ∨ exponent?.isSome = true
  padded : ∃ before after, whole ++ fraction = List.replicate before '0' ++ (ds ++ List.replicate after '0') ∧
    exponent?.getD 0 - fraction.length = exponent - after ∧ (exponent?.isSome = true → after = 0)

section Layout

variable {ds : List Char} {exponent : Int}

/-- The digits of a positive number. -/
structure IsDigits (ds : List Char) : Prop where
  digits : ∀ c ∈ ds, isDigit c = true
  nonempty : ds ≠ []
  head : ds.head? ≠ some '0'

theorem isDigits_decimal {n : ℕ} (h : 0 < n) : IsDigits (Text.decimal n) :=
  ⟨isDigit_decimal, decimal_ne_nil n, head?_decimal h⟩

theorem IsDigits.isWhole_append (h : IsDigits ds) {zeros : List Char} (hzeros : ∀ c ∈ zeros, isDigit c = true) :
    IsWhole (ds ++ zeros) := by
  obtain ⟨d, ds, rfl⟩ := List.exists_cons_of_ne_nil h.nonempty
  refine ⟨?_, by simp, fun hhead => absurd hhead h.head⟩
  simp only [List.mem_append]
  rintro c (hc | hc)
  · exact h.digits c hc
  · exact hzeros c hc

theorem IsDigits.isWhole_take (h : IsDigits ds) {n : ℕ} (hn : 0 < n) : IsWhole (ds.take n) := by
  obtain ⟨d, ds, rfl⟩ := List.exists_cons_of_ne_nil h.nonempty
  obtain ⟨n, rfl⟩ := Nat.exists_eq_add_one_of_ne_zero (Nat.ne_of_gt hn)
  exact ⟨fun c hc => h.digits c (List.mem_of_mem_take hc), by simp, fun hhead => absurd hhead h.head⟩

theorem isDigit_zeros (n : ℕ) : ∀ c ∈ List.replicate n '0', isDigit c = true := by
  intro c hc
  rw [List.eq_of_mem_replicate hc]
  rfl

/-- A positional text. -/
theorem positional_eq_spell (exponent : Int) (h : IsDigits ds) (hpoint : exponent + ds.length ≤ 16) : ∃ whole fraction,
    NumberLayout.positional ds (exponent + ds.length) = spell false whole fraction none ∧
      IsLayout ds exponent whole fraction none := by
  unfold NumberLayout.positional
  split
  · rename_i hsmall
    refine ⟨['0'], List.replicate (-(exponent + ds.length)).toNat '0' ++ ds, ?_, ⟨?_, ?_, ?_, ?_, ?_⟩⟩
    · simp [spell, spellExponent, h.nonempty]
    · exact isWhole_zero
    · simp only [List.mem_append]
      rintro c (hc | hc)
      · exact isDigit_zeros _ c hc
      · exact h.digits c hc
    · decide
    · exact .inl (List.append_ne_nil_of_right_ne_nil _ h.nonempty)
    · refine ⟨(-(exponent + ds.length)).toNat + 1, 0, ?_, ?_, fun _ => rfl⟩
      · simp [List.replicate_succ]
      · simp
        omega
  · rename_i hpos
    obtain ⟨p, hp⟩ := Int.eq_ofNat_of_zero_le (a := exponent + ds.length) (by omega)
    rw [hp]
    simp only [Int.toNat_natCast]
    split
    · rename_i hle
      refine ⟨ds ++ List.replicate (p - ds.length) '0', ['0'], ?_, ⟨?_, ?_, ?_, ?_, ?_⟩⟩
      · simp [spell, spellExponent]
      · exact h.isWhole_append (isDigit_zeros _)
      · exact isWhole_zero.digits
      · simp
        omega
      · exact .inl (List.cons_ne_nil _ _)
      · refine ⟨0, p - ds.length + 1, ?_, ?_, by simp⟩
        · simp [List.replicate_succ']
        · simp
          omega
    · rename_i hlt
      have hdrop : ds.drop p ≠ [] := by simpa using by omega
      refine ⟨ds.take p, ds.drop p, ?_, ⟨?_, ?_, ?_, ?_, ?_⟩⟩
      · simp [spell, spellExponent, hdrop]
      · exact h.isWhole_take (by omega)
      · exact fun c hc => h.digits c (List.mem_of_mem_drop hc)
      · simp
        omega
      · exact .inl hdrop
      · refine ⟨0, 0, by simp, ?_, fun _ => rfl⟩
        simp
        omega

theorem isLayout_scientific (exponent : Int) (h : IsDigits ds) :
    IsLayout ds exponent (ds.take 1) (ds.drop 1) (some (exponent + ds.length - 1)) := by
  have hlength : 0 < ds.length := List.length_pos_iff.2 h.nonempty
  refine ⟨?_, ?_, ?_, .inr rfl, ?_⟩
  · exact h.isWhole_take Nat.one_pos
  · exact fun c hc => h.digits c (List.mem_of_mem_drop hc)
  · rw [List.length_take]
    omega
  · refine ⟨0, 0, ?_, ?_, fun _ => rfl⟩
    · simpa using List.take_append_drop 1 ds
    · simp
      omega

/-- A text in scientific notation. -/
theorem scientific_eq_spell (h : IsDigits ds) : ∃ whole fraction exponent?,
    NumberLayout.scientific true ds (exponent + ds.length) = spell false whole fraction exponent? ∧
      IsLayout ds exponent whole fraction exponent? := by
  refine ⟨ds.take 1, ds.drop 1, some (exponent + ds.length - 1), ?_, isLayout_scientific exponent h⟩
  have htail : ds.length ≤ 1 ↔ ds.tail = [] := by
    rw [← List.length_eq_zero_iff, List.length_tail]
    omega
  simp [NumberLayout.scientific, spell, spellExponent, htail]

end Layout

/-! ## Doubles -/

/-- A format writes the digits of the shortest decimal, in one notation or the other. -/
theorem magnitude_cases (l : NumberLayout) {x : Binary64} (hx : x.isZero = false) :
    l.magnitude x = NumberLayout.scientific l.plusSign (Text.decimal (x.shortest l.tie).digits)
        ((x.shortest l.tie).exponent + (Text.decimal (x.shortest l.tie).digits).length) ∨
      (x.shortest l.tie).exponent + (Text.decimal (x.shortest l.tie).digits).length ≤ l.scientificAbove ∧
        l.magnitude x = NumberLayout.positional (Text.decimal (x.shortest l.tie).digits)
          ((x.shortest l.tie).exponent + (Text.decimal (x.shortest l.tie).digits).length) := by
  unfold NumberLayout.magnitude
  rw [if_neg (by simp [hx])]
  simp only []
  split
  · exact .inl rfl
  · exact .inr ⟨by omega, rfl⟩

/-- The digits of a double are those of its shortest decimal. -/
theorem magnitude_eq_spell {x : Binary64} (hx : x.isZero = false) : ∃ whole fraction exponent?,
    NumberLayout.json.magnitude x = spell false whole fraction exponent? ∧
      IsLayout (Text.decimal (x.shortest .toEven).digits) (x.shortest .toEven).exponent whole fraction exponent? := by
  have hdigits := isDigits_decimal (Binary64.shortest_digits_pos .toEven hx)
  rcases magnitude_cases .json hx with hwrite | ⟨hpoint, hwrite⟩ <;> rw [hwrite]
  · exact scientific_eq_spell hdigits
  · obtain ⟨whole, fraction, hspell, hlayout⟩ := positional_eq_spell (x.shortest .toEven).exponent hdigits hpoint
    exact ⟨whole, fraction, none, hspell, hlayout⟩

theorem not_isNaN_of_isFinite {x : Binary64} (h : x.isFinite = true) : x.isNaN = false ∧ x.isInfinite = false := by
  have hiff := Binary64.isFinite_eq_false_iff (x := x)
  rw [h] at hiff
  simpa using hiff

/-- The text of a finite double. -/
theorem write_float {x : Binary64} (h : x.isFinite = true) :
    NumberLayout.json.write x = (if x.isNegative then ['-'] else []) ++ NumberLayout.json.magnitude x := by
  obtain ⟨hnan, hinfinite⟩ := not_isNaN_of_isFinite h
  simp [NumberLayout.write, hnan, hinfinite]

theorem write_zero {x : Binary64} (h : x.isZero = true) :
    NumberLayout.json.magnitude x = spell false ['0'] ['0'] none := by
  simp [NumberLayout.magnitude, h, spell, spellExponent]

theorem sign_append_spell (negative : Bool) (whole fraction : List Char) (exponent? : Option Int) :
    (if negative then ['-'] else []) ++ spell false whole fraction exponent? =
      spell negative whole fraction exponent? := by
  simp [spell]

/-- Every number is spelled as a numeral. -/
theorem Number.exists_spells (n : Number) : ∃ t, Spells n.write t := by
  cases n with
  | integer n fits =>
    rw [Number.write, integer_eq_spell]
    exact ⟨_, spells_spell (isWhole_decimal n.natAbs) (by simp)⟩
  | float x finite =>
    rw [Number.write, write_float finite]
    cases hx : x.isZero with
    | true =>
      rw [write_zero hx, sign_append_spell]
      exact ⟨_, spells_spell isWhole_zero isWhole_zero.digits⟩
    | false =>
      obtain ⟨whole, fraction, exponent?, hspell, hlayout⟩ := magnitude_eq_spell hx
      rw [hspell, sign_append_spell]
      exact ⟨_, spells_spell hlayout.isWhole hlayout.digits⟩

/-- The numeral that a number is spelled as. -/
def Number.numeral (n : Number) : Numeral := (Numeral.ofChars? n.write).getD ⟨false, [], [], none⟩

theorem Number.spells_numeral (n : Number) : Spells n.write n.numeral := by
  obtain ⟨t, ht⟩ := n.exists_spells
  rw [Number.numeral, ht.read]
  exact ht

end TypeBundle.Json
