import Mathlib.Data.Nat.Notation
import Mathlib.Data.Option.Basic
import TypeBundle.Json.Tree
/-!
# How numbers are spelled

A numeral is spelled as a sign, digits, and perhaps a fraction and an exponent (`Numeral.spell`). What is spelled
is read as it was meant (`ofChars?_spell`), with no character that could not belong to a numeral. Integers are
spelled with their digits alone and stand for themselves (`value?_integer`).
-/

namespace TypeBundle.Json.Numeral

/-! ## Digits -/

theorem isDigit_eq (c : Char) : isDigit c = c.isDigit := by
  simp only [isDigit, Char.isDigit, Char.le_def]

theorem isDigit_decimal {n : ℕ} : ∀ c ∈ Text.decimal n, isDigit c = true := by
  intro c hc
  rw [isDigit_eq]
  exact Nat.isDigit_of_mem_toDigits (by decide) (by decide) hc

theorem decimal_ne_nil (n : ℕ) : Text.decimal n ≠ [] := Nat.toDigits_ne_nil

/-- The digits of a number do not begin with a zero, unless it is zero. -/
theorem head?_decimal {n : ℕ} (h : 0 < n) : (Text.decimal n).head? ≠ some '0' := by
  induction n using Nat.strongRecOn with
  | ind n ih =>
    rw [Text.decimal, Text.digits, Nat.toDigits_eq_if (by decide)]
    split
    · rename_i hlt
      have hdigit : ∀ d < 10, 0 < d → d.digitChar ≠ '0' := by decide
      simpa using hdigit n hlt h
    · obtain ⟨d, ds, hds⟩ := List.exists_cons_of_ne_nil (Nat.toDigits_ne_nil (n := n / 10) (b := 10))
      have hhead := ih (n / 10) (by omega) (by omega)
      rw [Text.decimal, Text.digits, hds] at hhead
      rw [hds]
      exact hhead

theorem natOf_digitsOf (cs : List Char) : natOf (digitsOf cs) = Nat.ofDigitChars 10 cs 0 := by
  rw [natOf, digitsOf, List.foldl_map, Nat.ofDigitChars]
  congr
  funext n c
  rw [Nat.mul_comm]

@[simp] theorem natOf_decimal (n : ℕ) : natOf (digitsOf (Text.decimal n)) = n := by
  rw [natOf_digitsOf]
  exact Nat.ofDigitChars_toDigits (by decide) (by decide)

/-- Digits that may stand before the point. -/
structure IsWhole (cs : List Char) : Prop where
  digits : ∀ c ∈ cs, isDigit c = true
  nonempty : cs ≠ []
  leading : cs.head? = some '0' → cs.length = 1

theorem isWhole_zero : IsWhole ['0'] := by
  refine ⟨?_, List.cons_ne_nil _ _, fun _ => rfl⟩
  simp only [List.forall_mem_singleton]
  rfl

theorem isWhole_decimal (n : ℕ) : IsWhole (Text.decimal n) := by
  refine ⟨isDigit_decimal, decimal_ne_nil n, fun hhead => ?_⟩
  obtain rfl | hpos := n.eq_zero_or_pos
  · rfl
  · exact absurd hhead (head?_decimal hpos)

/-! ## Spelling -/

/-- An exponent with its mark and its sign, if there is one. -/
def spellExponent : Option Int → List Char
  | none => []
  | some e => 'e' :: ((if 0 ≤ e then ['+'] else []) ++ Text.integer e)

/-- A numeral with these digits before and after the point. -/
def spell (negative : Bool) (whole fraction : List Char) (exponent? : Option Int) : List Char :=
  (if negative then ['-'] else []) ++
    (whole ++ ((if fraction = [] then [] else '.' :: fraction) ++ spellExponent exponent?))

theorem exponentOf?_spelled (e : Int) : exponentOf? ((if 0 ≤ e then ['+'] else []) ++ Text.integer e) = some e := by
  have hall : ∀ n : ℕ, (Text.decimal n).all isDigit = true := fun n => List.all_eq_true.2 isDigit_decimal
  cases e with
  | ofNat n => simp [exponentOf?, Text.integer, hall, decimal_ne_nil]
  | negSucc n =>
    simp [exponentOf?, Text.integer, hall, decimal_ne_nil, Int.negSucc_not_nonneg]
    omega

section Spell

variable {negative : Bool} {whole fraction : List Char} {exponent? : Option Int}

theorem takeWhile_append {ds rest : List Char} (hds : ∀ c ∈ ds, isDigit c = true)
    (hrest : ∀ c ∈ rest.head?, isDigit c = false) :
    (ds ++ rest).takeWhile isDigit = ds ∧ (ds ++ rest).dropWhile isDigit = rest := by
  induction ds with
  | nil =>
    cases rest with
    | nil => exact ⟨rfl, rfl⟩
    | cons c rest => simp [hrest c rfl]
  | cons d ds ih =>
    simp only [List.forall_mem_cons] at hds
    simp [hds.1, ih hds.2]

/-- What is spelled is read. -/
theorem ofChars?_spell (hwhole : IsWhole whole) (hfraction : ∀ c ∈ fraction, isDigit c = true) :
    ofChars? (spell negative whole fraction exponent?) =
      some ⟨negative, digitsOf whole, digitsOf fraction, exponent?⟩ := by
  have hexponent : ∀ c ∈ (spellExponent exponent?).head?, isDigit c = false := by
    cases exponent? <;> simp [spellExponent]
    decide
  have hrest : ∀ c ∈ ((if fraction = [] then [] else '.' :: fraction) ++ spellExponent exponent?).head?,
      isDigit c = false := by
    split
    · simpa using hexponent
    · simp
      decide
  obtain ⟨htake, hdrop⟩ := takeWhile_append hwhole.digits hrest
  obtain ⟨d, ds, rfl⟩ := List.exists_cons_of_ne_nil hwhole.nonempty
  have hd : d ≠ '-' := by
    rintro rfl
    exact absurd (hwhole.digits '-' (by simp)) (by decide)
  obtain ⟨hfractionTake, hfractionDrop⟩ := takeWhile_append hfraction hexponent
  have hleading : d = '0' → ds = [] := by simpa using hwhole.leading
  have hguard : (guard (d = '0' → ds = []) : Option Unit) = some () := if_pos hleading
  cases negative <;> cases fraction <;> cases exponent? <;>
    simp only [spell, spellExponent, if_true, Bool.false_eq_true, if_false, List.nil_append, List.cons_append,
      List.append_nil, reduceCtorEq] at htake hdrop hfractionTake hfractionDrop ⊢ <;>
    simp [ofChars?, htake, hdrop, hfractionTake, hfractionDrop, hguard, exponentOf?_spelled, hd]

theorem isNumeralChar_of_isDigit {c : Char} (h : isDigit c = true) : Tree.isNumeralChar c = true := by
  simp [Tree.isNumeralChar, h]

/-- No other characters than those of numerals are spelled. -/
theorem isNumeralChar_spell (hwhole : ∀ c ∈ whole, isDigit c = true) (hfraction : ∀ c ∈ fraction, isDigit c = true) :
    ∀ c ∈ spell negative whole fraction exponent?, Tree.isNumeralChar c = true := by
  have hexponent : ∀ c ∈ spellExponent exponent?, Tree.isNumeralChar c = true := by
    cases exponent? with
    | none => simp [spellExponent]
    | some e =>
      have hdecimal : ∀ n, ∀ c ∈ Text.decimal n, Tree.isNumeralChar c = true :=
        fun n c hc => isNumeralChar_of_isDigit (isDigit_decimal c hc)
      cases e with
      | ofNat n => simpa [spellExponent, Text.integer] using ⟨rfl, rfl, hdecimal n⟩
      | negSucc n => simpa [spellExponent, Text.integer, Int.negSucc_not_nonneg] using ⟨rfl, rfl, hdecimal (n + 1)⟩
  intro c hc
  simp only [spell, List.mem_append] at hc
  rcases hc with hc | hc | hc | hc
  · split at hc
    · obtain rfl := List.mem_singleton.1 hc
      rfl
    · cases hc
  · exact isNumeralChar_of_isDigit (hwhole c hc)
  · split at hc
    · cases hc
    · rcases List.mem_cons.1 hc with rfl | hc
      · rfl
      · exact isNumeralChar_of_isDigit (hfraction c hc)
  · exact hexponent c hc

/-- The text is that of a numeral, from its first character on. -/
structure Spells (cs : List Char) (t : Numeral) : Prop where
  read : ofChars? cs = some t
  chars : ∀ c ∈ cs, Tree.isNumeralChar c = true
  head : ∃ c rest, cs = c :: rest ∧ (c = '-' ∨ isDigit c = true)

theorem spells_spell (hwhole : IsWhole whole) (hfraction : ∀ c ∈ fraction, isDigit c = true) :
    Spells (spell negative whole fraction exponent?) ⟨negative, digitsOf whole, digitsOf fraction, exponent?⟩ := by
  refine ⟨ofChars?_spell hwhole hfraction, isNumeralChar_spell hwhole.digits hfraction, ?_⟩
  obtain ⟨d, ds, rfl⟩ := List.exists_cons_of_ne_nil hwhole.nonempty
  cases negative with
  | true => exact ⟨'-', _, rfl, .inl rfl⟩
  | false => exact ⟨d, _, rfl, .inr (hwhole.digits d List.mem_cons_self)⟩

end Spell

/-! ## Integers -/

theorem integer_eq_spell (n : Int) : Text.integer n = spell (decide (n < 0)) (Text.decimal n.natAbs) [] none := by
  cases n with
  | ofNat n => simp [Text.integer, spell, spellExponent]
  | negSucc n => simp [Text.integer, spell, spellExponent, Int.negSucc_lt_zero]

/-- Digits without fraction and exponent stand for the integer. -/
theorem value?_integer (n : Int) (fits : -0x8000000000000000 ≤ n ∧ n < 0x10000000000000000) :
    value? ⟨decide (n < 0), digitsOf (Text.decimal n.natAbs), [], none⟩ = some (.integer n fits) := by
  simp only [value?, natOf_decimal]
  rw [if_neg (by simp)]
  by_cases hn : n < 0
  · have habs : -(n.natAbs : Int) = n := by omega
    rw [if_pos (decide_eq_true hn), if_neg (by omega), habs, Number.ofInt?, dif_pos fits]
  · have habs : (n.natAbs : Int) = n := by omega
    rw [if_neg (by simpa using hn), if_neg (by omega), habs, Number.ofInt?, dif_pos fits]

end TypeBundle.Json.Numeral
