import TypeBundle.Proofs.Yaml.Number
import TypeBundle.Yaml.Style
/-!
# Scalars that need no quotes

Natural numbers, truth values and numbers are written as plain scalars (`showsPlain_decimal`, `showsPlain_write`), and
stand for what was written (`natural?_decimal`, `literal?_write`).
-/

namespace TypeBundle.Yaml

open Style
open Json (not_isNaN_of_isFinite)
open Json.Numeral (isDigit isDigit_decimal decimal_ne_nil head?_decimal isNumeralChar_of_isDigit IsWhole)
open Json.Tree (isNumeralChar)

/-! ## Texts of numerals -/

theorem exists_digitChar {c : Char} (h : isDigit c = true) : ∃ d < 10, c = d.digitChar := by
  have hchar : ∀ d < 10, Char.ofNat (48 + d) = d.digitChar := by decide
  simp only [isDigit, Bool.and_eq_true, decide_eq_true_eq, Char.le_def, UInt32.le_iff_toNat_le] at h
  change 48 ≤ c.toNat ∧ c.toNat ≤ 57 at h
  refine ⟨c.toNat - 48, by omega, ?_⟩
  rw [← hchar _ (by omega), Nat.add_sub_cancel' h.1, Char.ofNat_toNat]

/-- The characters of numerals have no meaning of their own within a scalar. -/
theorem plain_of_isNumeralChar {c : Char} (h : isNumeralChar c = true) :
    c ≠ ' ' ∧ c ≠ ':' ∧ c ≠ '#' ∧ isBreak c = false ∧ isPrintable c = true := by
  simp only [isNumeralChar, Bool.or_eq_true, beq_iff_eq] at h
  rcases h with ((((h | rfl) | rfl) | rfl) | rfl) | rfl
  · obtain ⟨d, hd, rfl⟩ := exists_digitChar h
    have hall : ∀ d < 10, d.digitChar ≠ ' ' ∧ d.digitChar ≠ ':' ∧ d.digitChar ≠ '#' ∧ isBreak d.digitChar = false ∧
        isPrintable d.digitChar = true := by decide
    exact hall d hd
  all_goals decide

theorem flows_of_isNumeralChar {cs : List Char} (h : ∀ c ∈ cs, isNumeralChar c = true) (afterSpace : Bool) :
    flows afterSpace cs = true := by
  induction cs generalizing afterSpace with
  | nil => rfl
  | cons c cs ih =>
    rw [List.forall_mem_cons] at h
    obtain ⟨-, hcolon, hcomment, hbreak, hprintable⟩ := plain_of_isNumeralChar h.1
    simp [flows, hcolon, hcomment, hbreak, hprintable, ih h.2]

theorem beginsPlain_digit {c : Char} (hc : isDigit c = true) (cs : List Char) : beginsPlain (c :: cs) = true := by
  obtain ⟨d, hd, rfl⟩ := exists_digitChar hc
  have hne : ∀ d < 10, d.digitChar ≠ '-' ∧ d.digitChar ≠ '.' ∧ d.digitChar ≠ '?' ∧ d.digitChar ≠ ':' ∧
      d.digitChar ≠ ' ' ∧ isIndicator d.digitChar = false := by decide
  obtain ⟨hminus, hpoint, hquestion, hcolon, hspace, hindicator⟩ := hne d hd
  generalize d.digitChar = c at hminus hpoint hquestion hcolon hspace hindicator
  unfold beginsPlain
  split
  · cases ‹c :: cs = []›
  · rename_i heq
    exact absurd (List.cons.inj heq).1 hminus
  · rename_i heq
    exact absurd (List.cons.inj heq).1 hpoint
  · rename_i heq
    obtain ⟨rfl, rfl⟩ := List.cons.inj heq
    simp [hminus, hquestion, hcolon, hspace, hindicator]

theorem beginsPlain_minus {c : Char} (hc : isDigit c = true) (cs : List Char) :
    beginsPlain ('-' :: c :: cs) = true := by
  obtain ⟨d, hd, rfl⟩ := exists_digitChar hc
  have hne : ∀ d < 10, d.digitChar ≠ '-' ∧ isBlank d.digitChar = false ∧ isBreak d.digitChar = false := by decide
  obtain ⟨hminus, hblank, hbreak⟩ := hne d hd
  generalize d.digitChar = c at hminus hblank hbreak
  have hindicator : isIndicator '-' = false := by decide
  unfold beginsPlain
  split
  · rename_i heq
    cases heq
  · rename_i heq
    exact absurd (List.cons.inj (List.cons.inj heq).2).1 hminus
  · rename_i heq
    exact absurd (List.cons.inj heq).1 (by decide)
  · rename_i heq
    obtain ⟨rfl, rfl⟩ := List.cons.inj heq
    simp [endsWord, hblank, hbreak, hindicator]

theorem showsPlain_of_begins {cs : List Char} (hbegins : beginsPlain cs = true)
    (hcs : ∀ c ∈ cs, isNumeralChar c = true) : showsPlain cs = true := by
  have hlast : cs.getLast? ≠ some ' ' := fun h =>
    (plain_of_isNumeralChar (hcs ' ' (List.mem_of_getLast? h))).1 rfl
  simp [showsPlain, hbegins, hlast, flows_of_isNumeralChar hcs]

theorem showsPlain_decimal (n : ℕ) : showsPlain (Text.decimal n) = true := by
  obtain ⟨d, ds, hds⟩ := List.exists_cons_of_ne_nil (decimal_ne_nil n)
  refine showsPlain_of_begins ?_ fun c hc => isNumeralChar_of_isDigit (isDigit_decimal c hc)
  rw [hds]
  exact beginsPlain_digit (isDigit_decimal d (hds ▸ List.mem_cons_self)) ds

theorem isNumeralChar_numberText {negative : Bool} {whole fraction : List Char} {exponent? : Option Int}
    (hwhole : ∀ c ∈ whole, isDigit c = true) (hfraction : ∀ c ∈ fraction, isDigit c = true) :
    ∀ c ∈ numberText negative whole fraction exponent?, isNumeralChar c = true := by
  have hexponent : ∀ c ∈ exponentText exponent?, isNumeralChar c = true := by
    have hdecimal : ∀ n, ∀ c ∈ Text.decimal n, isNumeralChar c = true :=
      fun n c hc => isNumeralChar_of_isDigit (isDigit_decimal c hc)
    cases exponent? with
    | none => simp [exponentText]
    | some e =>
      cases e with
      | ofNat n => exact List.forall_mem_cons.2 ⟨rfl, hdecimal n⟩
      | negSucc n => exact List.forall_mem_cons.2 ⟨rfl, List.forall_mem_cons.2 ⟨rfl, hdecimal (n + 1)⟩⟩
  intro c hc
  simp only [numberText, List.mem_append] at hc
  rcases hc with hc | hc | hc | hc
  · split at hc
    · obtain rfl := List.mem_singleton.1 hc
      rfl
    · cases hc
  · exact isNumeralChar_of_isDigit (hwhole c hc)
  · split at hc
    · cases hc
    · rcases List.mem_cons.1 hc with rfl | hc
      · rfl
      · exact isNumeralChar_of_isDigit (hfraction c hc)
  · exact hexponent c hc

theorem beginsPlain_numberText (negative : Bool) {whole fraction : List Char} {exponent? : Option Int}
    (hwhole : IsWhole whole) : beginsPlain (numberText negative whole fraction exponent?) = true := by
  obtain ⟨d, ds, rfl⟩ := List.exists_cons_of_ne_nil hwhole.nonempty
  have hd : isDigit d = true := hwhole.digits d List.mem_cons_self
  cases negative with
  | false => exact beginsPlain_digit hd _
  | true => exact beginsPlain_minus hd _

/-- A number needs no quotes. -/
theorem showsPlain_write (x : Binary64) : showsPlain (NumberLayout.yaml.write x) = true := by
  cases hfinite : x.isFinite with
  | true =>
    obtain ⟨whole, fraction, exponent?, hwrite, hwhole, hfraction, -⟩ := exists_numberText hfinite
    rw [hwrite]
    exact showsPlain_of_begins (beginsPlain_numberText _ hwhole) (isNumeralChar_numberText hwhole.digits hfraction)
  | false =>
    unfold NumberLayout.write
    split
    · decide
    · rcases Binary64.isFinite_eq_false_iff.1 hfinite with hnan | hinfinite
      · contradiction
      · rw [if_pos hinfinite]
        split <;> decide

/-! ## What they stand for -/

/-- The digits of a number stand for the number. -/
theorem natural?_decimal (n : ℕ) : Plain.natural? (Text.decimal n) = some n := by
  have hread : Text.readNat? 10 (Text.decimal n) = some n := Text.readNat?_digits (by decide) (by decide) n
  have hdigit : ∀ c cs, Text.decimal n = c :: cs → isDigit c = true := fun c cs h =>
    isDigit_decimal c (h ▸ List.mem_cons_self)
  have hzero : ∀ c cs, Text.decimal n ≠ '0' :: c :: cs := by
    intro c cs h
    rcases Nat.eq_zero_or_pos n with rfl | hpos
    · cases h
    · exact head?_decimal hpos (by rw [h]; rfl)
  have hplus : Plain.withoutPlus (Text.decimal n) = Text.decimal n := by
    unfold Plain.withoutPlus
    split
    · rename_i heq
      exact absurd (hdigit _ _ heq) (by decide)
    · rfl
  have hleading : Plain.hasLeadingZero (Text.decimal n) = false := by
    unfold Plain.hasLeadingZero
    split
    · rename_i heq
      exact absurd (hdigit _ _ heq) (by decide)
    · rename_i heq
      exact absurd (hdigit _ _ heq) (by decide)
    · simp only []
  have hmagnitude : Plain.magnitude? (Text.decimal n) = some n := by
    unfold Plain.magnitude?
    split
    · exact absurd ‹_› (hzero _ _)
    · exact absurd ‹_› (hzero _ _)
    · exact absurd ‹_› (hzero _ _)
    · exact hread
  rw [Plain.natural?, hleading, hplus, hmagnitude]
  rfl

theorem isNull_eq_false {text : String} {l : Literal} (h : Plain.literal? text = some l) :
    Plain.isNull text.toList = false := by
  cases hnull : Plain.isNull text.toList with
  | false => rfl
  | true => simp [Plain.literal?, Plain.meaning, hnull] at h

theorem literal?_bool (b : Bool) : Plain.literal? (if b then "true" else "false") = some (.boolean b) := by
  cases b <;> decide

/-- The number that is read from the text of a number: all numbers that are none are read as one. -/
def rereadNumber (x : Binary64) : Binary64 := if x.isNaN then .nan false else x

/-- A number is read from its text. -/
theorem literal?_write (x : Binary64) :
    Plain.literal? (String.ofList (NumberLayout.yaml.write x)) = some (.number (rereadNumber x)) := by
  cases hnan : x.isNaN with
  | true =>
    have hwrite : NumberLayout.yaml.write x = ".nan".toList := if_pos hnan
    rw [hwrite, rereadNumber, if_pos hnan]
    decide +kernel
  | false =>
    rw [rereadNumber, if_neg (by simp [hnan])]
    cases hfinite : x.isFinite with
    | true => simp [Plain.literal?, meaning_write hfinite]
    | false =>
      have hinfinite : x.isInfinite = true := by simpa [hnan] using Binary64.isFinite_eq_false_iff.1 hfinite
      have hmagnitude : x.magnitude = Binary64.infinityBits := by
        simp only [Binary64.isInfinite, Binary64.exponentField, Binary64.fractionField, Bool.and_eq_true,
          beq_iff_eq] at hinfinite
        simp only [Binary64.infinityBits]
        omega
      have hwrite : NumberLayout.yaml.write x = (if x.isNegative then "-.inf" else ".inf").toList := by
        simp [NumberLayout.write, hnan, hinfinite, NumberLayout.yaml]
      conv_rhs => rw [x.eq_ofMagnitude, hmagnitude]
      rw [hwrite]
      cases x.isNegative <;> decide +kernel

end TypeBundle.Yaml
