import TypeBundle.Proofs.Json.Range
import TypeBundle.Proofs.Number.Exact
import TypeBundle.Proofs.Text
import TypeBundle.Yaml.Plain
/-!
# Numbers in YAML

YAML spells a finite number like JSON does, but for the sign of positive exponents (`exists_numberText`). The text is
not one of an integer and is read as the number (`float?_write`), since all digits are read before they are rounded.
-/

namespace TypeBundle.Yaml

open Json (IsLayout IsDigits isDigits_decimal isLayout_scientific magnitude_cases positional_eq_spell
  not_isNaN_of_isFinite)
open Json.Numeral (isDigit isDigit_eq isDigit_decimal decimal_ne_nil isWhole_zero takeWhile_append IsWhole digitsOf
  natOf natFrom_append natFrom_layout spell spellExponent)

/-! ## Texts of numbers -/

def exponentText : Option Int → List Char
  | none => []
  | some e => 'e' :: Text.integer e

/-- A number with these digits before and after the point. -/
def numberText (negative : Bool) (whole fraction : List Char) (exponent? : Option Int) : List Char :=
  (if negative then ['-'] else []) ++
    (whole ++ ((if fraction = [] then [] else '.' :: fraction) ++ exponentText exponent?))

section Magnitude

variable {whole fraction : List Char} {exponent? : Option Int}

theorem isDecimalDigit_eq (c : Char) : Binary64.isDecimalDigit c = isDigit c := by
  simp only [Binary64.isDecimalDigit, isDigit]

theorem isDecimalDigit_eq_isDigit : Binary64.isDecimalDigit = isDigit := funext isDecimalDigit_eq

theorem digitsToNat_eq (cs : List Char) : Binary64.digitsToNat cs = natOf (digitsOf cs) := by
  rw [natOf, digitsOf, List.foldl_map]
  rfl

theorem parseExponent?_integer (e : Int) : Binary64.parseExponent? (Text.integer e) = some e := by
  have hall : ∀ n : ℕ, (Text.decimal n).all Binary64.isDecimalDigit = true := fun n =>
    List.all_eq_true.2 fun c hc => (isDecimalDigit_eq c).trans (isDigit_decimal c hc)
  have hvalue : ∀ n : ℕ, Binary64.digitsToNat (Text.decimal n) = n := fun n => by
    rw [digitsToNat_eq, Json.Numeral.natOf_decimal]
  cases e with
  | ofNat n =>
    obtain ⟨d, ds, hds⟩ := List.exists_cons_of_ne_nil (decimal_ne_nil n)
    have hd : isDigit d = true := isDigit_decimal d (by rw [hds]; exact List.mem_cons_self)
    have hplus : d ≠ '+' := by
      rintro rfl
      exact absurd hd (by decide)
    have hminus : d ≠ '-' := by
      rintro rfl
      exact absurd hd (by decide)
    have hread := hvalue n
    have hdigits := hall n
    rw [hds] at hread hdigits
    simp only [Text.integer, hds]
    unfold Binary64.parseExponent?
    split
    rename_i negative ds' hmatch
    split at hmatch
    · rename_i heq
      cases heq
      exact absurd rfl hplus
    · rename_i heq
      cases heq
      exact absurd rfl hminus
    · obtain ⟨rfl, rfl⟩ := Prod.mk.inj hmatch
      simp [hdigits, hread]
  | negSucc n =>
    simp [Binary64.parseExponent?, Text.integer, hall, hvalue, decimal_ne_nil]
    omega

theorem head?_exponentText (exponent? : Option Int) : ∀ c ∈ (exponentText exponent?).head?, isDigit c = false := by
  cases exponent? <;> simp [exponentText]
  decide

theorem head?_afterWhole (fraction : List Char) (exponent? : Option Int) :
    ∀ c ∈ ((if fraction = [] then [] else '.' :: fraction) ++ exponentText exponent?).head?, isDigit c = false := by
  split
  · simpa using head?_exponentText exponent?
  · simp
    decide

/-- The words for what is not finite do not begin with a digit. -/
theorem word_ne {d : Char} {cs : List Char} (hd : isDigit d = true) (word : String)
    (hword : word.toList.head?.any isDigit = false) :
    (String.ofList ((d :: cs).map Binary64.lowercase) == word) = false := by
  have hlower : Binary64.lowercase d = d := by
    unfold Binary64.lowercase
    rw [if_neg]
    rintro ⟨hle, -⟩
    simp only [isDigit, Bool.and_eq_true, decide_eq_true_eq, Char.le_def, UInt32.le_iff_toNat_le] at hd hle
    exact absurd (hle.trans hd.2) (by decide)
  rw [beq_eq_false_iff_ne]
  rintro rfl
  rw [String.toList_ofList, List.map_cons, hlower] at hword
  rw [List.head?_cons, Option.any_some, hd] at hword
  cases hword

/-- The digits around the point are read as one number. -/
theorem parseMagnitude?_numberText (negative : Bool) (hwhole : IsWhole whole)
    (hfraction : ∀ c ∈ fraction, isDigit c = true) :
    Binary64.parseMagnitude? negative (numberText false whole fraction exponent?) =
      some (.ofDecimal negative (natOf (digitsOf (whole ++ fraction))) (exponent?.getD 0 - fraction.length)) := by
  obtain ⟨htake, hdrop⟩ := takeWhile_append hwhole.digits (head?_afterWhole fraction exponent?)
  obtain ⟨hfractionTake, hfractionDrop⟩ := takeWhile_append hfraction (head?_exponentText exponent?)
  have hmark : Binary64.lowercase 'e' = 'e' := by decide
  obtain ⟨d, ds, rfl⟩ := List.exists_cons_of_ne_nil hwhole.nonempty
  have hd : isDigit d = true := hwhole.digits d List.mem_cons_self
  simp only [numberText, Bool.false_eq_true, if_false, List.nil_append, List.cons_append]
  unfold Binary64.parseMagnitude?
  simp only [word_ne hd "inf" (by decide), word_ne hd "infinity" (by decide), word_ne hd "nan" (by decide),
    Bool.or_self, Bool.false_eq_true, if_false, isDecimalDigit_eq_isDigit]
  rw [List.cons_append] at htake hdrop
  rw [htake, hdrop]
  cases fraction <;> cases exponent? <;>
    simp only [exponentText, if_true, reduceCtorEq, if_false, List.nil_append, List.cons_append,
      List.append_nil] at hfractionTake hfractionDrop ⊢ <;>
    simp [hfractionTake, hfractionDrop, hmark, parseExponent?_integer, digitsToNat_eq]

theorem isDigit_of_numberText {c : Char} {cs : List Char} (hwhole : IsWhole whole)
    (h : numberText false whole fraction exponent? = c :: cs) : isDigit c = true := by
  obtain ⟨d, ds, rfl⟩ := List.exists_cons_of_ne_nil hwhole.nonempty
  obtain rfl : d = c := (List.cons.inj h).1
  exact hwhole.digits d List.mem_cons_self

theorem numberText_ne {c : Char} (hwhole : IsWhole whole) (hc : isDigit c = false) (cs : List Char) :
    numberText false whole fraction exponent? ≠ c :: cs := fun h => by
  simp [isDigit_of_numberText hwhole h] at hc

theorem ne_numberText (hwhole : IsWhole whole) (negative : Bool) {c : Char} (hc : isDigit c = false) (hsign : c ≠ '-')
    (cs : List Char) : numberText negative whole fraction exponent? ≠ c :: cs := by
  cases negative with
  | true => exact fun h => hsign (List.cons.inj h).1.symm
  | false => exact numberText_ne hwhole hc cs

theorem parse?_numberText (negative : Bool) (hwhole : IsWhole whole) (hfraction : ∀ c ∈ fraction, isDigit c = true) :
    Binary64.parse? (numberText negative whole fraction exponent?) =
      some (.ofDecimal negative (natOf (digitsOf (whole ++ fraction))) (exponent?.getD 0 - fraction.length)) := by
  rw [← parseMagnitude?_numberText negative hwhole hfraction]
  cases negative with
  | true => rfl
  | false =>
    unfold Binary64.parse?
    split
    · rename_i heq
      exact absurd heq (numberText_ne hwhole rfl _)
    · rename_i heq
      exact absurd heq (numberText_ne hwhole rfl _)
    · rfl

/-! ## Numbers that are no integers -/

theorem no_word {words : List String} {text : List Char} (h : ∀ w ∈ words, text ≠ w.toList) :
    words.any (·.toList == text) = false := by
  rw [List.any_eq_false]
  exact fun w hw heq => h w hw (beq_iff_eq.1 heq).symm

theorem mem_mark (whole : List Char) (hmarked : fraction ≠ [] ∨ exponent?.isSome = true) :
    ∃ c ∈ numberText false whole fraction exponent?, c = '.' ∨ c = 'e' := by
  rcases hmarked with h | h
  · exact ⟨'.', by simp [numberText, h], .inl rfl⟩
  · obtain ⟨e, rfl⟩ := Option.isSome_iff_exists.1 h
    exact ⟨'e', by simp [numberText, exponentText], .inr rfl⟩

section Marked

variable (hwhole : IsWhole whole) (hmarked : fraction ≠ [] ∨ exponent?.isSome = true)
include hwhole hmarked

/-- A point or the mark of an exponent follows a zero. -/
theorem mark_of_leadingZero {c : Char} {cs : List Char}
    (h : numberText false whole fraction exponent? = '0' :: c :: cs) : c = '.' ∨ c = 'e' := by
  obtain ⟨d, ds, rfl⟩ := List.exists_cons_of_ne_nil hwhole.nonempty
  simp only [numberText, Bool.false_eq_true, if_false, List.nil_append, List.cons_append, List.cons.injEq] at h
  obtain ⟨rfl, h⟩ := h
  obtain rfl : ds = [] := by simpa using hwhole.leading rfl
  cases fraction with
  | cons f fraction => exact .inl (List.cons.inj h).1.symm
  | nil =>
    obtain ⟨e, rfl⟩ := Option.isSome_iff_exists.1 (hmarked.resolve_left fun hne => hne rfl)
    exact .inr (List.cons.inj h).1.symm

theorem magnitude?_numberText : Plain.magnitude? (numberText false whole fraction exponent?) = none := by
  unfold Plain.magnitude?
  split
  · rename_i heq
    simpa using mark_of_leadingZero hwhole hmarked heq
  · rename_i heq
    simpa using mark_of_leadingZero hwhole hmarked heq
  · rename_i heq
    simpa using mark_of_leadingZero hwhole hmarked heq
  · obtain ⟨c, hc, hcases⟩ := mem_mark whole hmarked
    have hvalue : ∀ d ∈ Text.digitValue? c, 10 ≤ d := by
      rcases hcases with rfl | rfl <;> decide
    exact Text.readNat?_eq_none hc hvalue

theorem hasLeadingZero_numberText (negative : Bool) :
    Plain.hasLeadingZero (numberText negative whole fraction exponent?) = false := by
  have hdigits : ∀ c cs, numberText false whole fraction exponent? = '0' :: c :: cs →
      (c :: cs).all Binary64.isDecimalDigit = false := by
    intro c cs h
    rcases mark_of_leadingZero hwhole hmarked h with rfl | rfl <;> rfl
  have hsign : ∀ cs, numberText negative whole fraction exponent? = '-' :: cs →
      cs = numberText false whole fraction exponent? := by
    intro cs h
    cases negative with
    | true => exact (List.cons.inj h).2.symm
    | false => exact absurd h (numberText_ne hwhole rfl _)
  unfold Plain.hasLeadingZero
  split
  · rename_i heq
    cases negative with
    | true => cases heq
    | false => exact absurd heq (numberText_ne hwhole rfl _)
  · rename_i heq
    rw [hsign _ heq]
    simp only []
    split
    · exact hdigits _ _ ‹_›
    · rfl
  · rename_i hminus
    simp only []
    split
    · rename_i heq
      cases negative with
      | true => cases heq
      | false => exact hdigits _ _ heq
    · rfl

omit hmarked in
theorem withoutPlus_numberText (negative : Bool) :
    Plain.withoutPlus (numberText negative whole fraction exponent?) =
      numberText negative whole fraction exponent? := by
  unfold Plain.withoutPlus
  split
  · rename_i heq
    exact absurd heq (ne_numberText hwhole negative rfl (by decide) _)
  · rfl

theorem integer?_numberText (negative : Bool) :
    Plain.integer? (numberText negative whole fraction exponent?) = none := by
  cases negative with
  | true =>
    change (if Plain.hasLeadingZero (numberText true whole fraction exponent?) then none
      else (Plain.magnitude? (numberText false whole fraction exponent?)).map fun n => -(n : Int)) = none
    rw [hasLeadingZero_numberText hwhole hmarked, magnitude?_numberText hwhole hmarked]
    rfl
  | false =>
    unfold Plain.integer?
    split
    · exact absurd ‹_› (numberText_ne hwhole rfl _)
    · rw [Plain.natural?, hasLeadingZero_numberText hwhole hmarked, withoutPlus_numberText hwhole,
        magnitude?_numberText hwhole hmarked]
      rfl

theorem float?_numberText (negative : Bool) (hfraction : ∀ c ∈ fraction, isDigit c = true) {x : Binary64}
    (hx : .ofDecimal negative (natOf (digitsOf (whole ++ fraction))) (exponent?.getD 0 - fraction.length) = x)
    (hfinite : x.isFinite = true) : Plain.float? (numberText negative whole fraction exponent?) = some x := by
  have hpoint : ∀ cs, numberText negative whole fraction exponent? ≠ '.' :: cs :=
    ne_numberText hwhole negative rfl (by decide)
  have hminusPoint : ∀ cs, numberText negative whole fraction exponent? ≠ '-' :: '.' :: cs := by
    intro cs h
    cases negative with
    | true => exact numberText_ne hwhole rfl cs (List.cons.inj h).2
    | false => exact numberText_ne hwhole rfl _ h
  have hplus : (numberText negative whole fraction exponent?).head? ≠ some '+' := by
    intro h
    obtain ⟨cs, hcs⟩ := List.head?_eq_some_iff.1 h
    exact ne_numberText hwhole negative rfl (by decide) cs hcs
  have hinfinite : [".inf", ".Inf", ".INF"].any (·.toList == numberText negative whole fraction exponent?) = false :=
    no_word (by simp [hpoint])
  have hminusInfinite :
      ["-.inf", "-.Inf", "-.INF"].any (·.toList == numberText negative whole fraction exponent?) = false :=
    no_word (by simp [hminusPoint])
  have hnan : [".nan", ".NaN", ".NAN"].any (·.toList == numberText negative whole fraction exponent?) = false :=
    no_word (by simp [hpoint])
  simp only [Plain.float?, hasLeadingZero_numberText hwhole hmarked, withoutPlus_numberText hwhole, hinfinite,
    hminusInfinite, hnan, Bool.false_eq_true, if_false, hplus, false_and, parse?_numberText negative hwhole hfraction,
    hx, Option.filter_some, hfinite, if_true]

/-- The text stands for the number that is read from it. -/
theorem meaning_numberText (negative : Bool) (hfraction : ∀ c ∈ fraction, isDigit c = true) {x : Binary64}
    (hx : .ofDecimal negative (natOf (digitsOf (whole ++ fraction))) (exponent?.getD 0 - fraction.length) = x)
    (hfinite : x.isFinite = true) : Plain.meaning (numberText negative whole fraction exponent?) = .number x := by
  have hne {c : Char} (hc : isDigit c = false) (hsign : c ≠ '-') :
      ∀ cs, numberText negative whole fraction exponent? ≠ c :: cs := ne_numberText hwhole negative hc hsign
  have hnull : Plain.isNull (numberText negative whole fraction exponent?) = false := by
    have hnil : numberText negative whole fraction exponent? ≠ [] := by
      obtain ⟨d, ds, rfl⟩ := List.exists_cons_of_ne_nil hwhole.nonempty
      simp [numberText]
    simp [Plain.isNull, hnil, hne (c := '~') rfl (by decide), hne (c := 'n') rfl (by decide),
      hne (c := 'N') rfl (by decide)]
  have hbool : Plain.bool? (numberText negative whole fraction exponent?) = none := by
    have htrue : ["true", "True", "TRUE"].any (·.toList == numberText negative whole fraction exponent?) = false :=
      no_word (by simp [hne (c := 't') rfl (by decide), hne (c := 'T') rfl (by decide)])
    have hfalse : ["false", "False", "FALSE"].any (·.toList == numberText negative whole fraction exponent?) = false :=
      no_word (by simp [hne (c := 'f') rfl (by decide), hne (c := 'F') rfl (by decide)])
    simp only [Plain.bool?, htrue, hfalse, Bool.false_eq_true, if_false]
  simp only [Plain.meaning, hnull, Bool.false_eq_true, if_false, hbool, integer?_numberText hwhole hmarked,
    Plain.floatOrString, float?_numberText hwhole hmarked negative hfraction hx hfinite]

end Marked

/-! ## Texts of finite numbers -/

theorem magnitude_eq_numberText {x : Binary64} (hx : x.isZero = false) : ∃ whole fraction exponent?,
    NumberLayout.yaml.magnitude x = numberText false whole fraction exponent? ∧
      IsLayout (Text.decimal (x.shortest .toEven).digits) (x.shortest .toEven).exponent whole fraction exponent? := by
  have hdigits := isDigits_decimal (Binary64.shortest_digits_pos .toEven hx)
  rcases magnitude_cases .yaml hx with hwrite | ⟨hpoint, hwrite⟩ <;> rw [hwrite]
  · refine ⟨_, _, _, ?_, isLayout_scientific _ hdigits⟩
    have htail : (Text.decimal (x.shortest .toEven).digits).length ≤ 1 ↔
        (Text.decimal (x.shortest .toEven).digits).tail = [] := by
      rw [← List.length_eq_zero_iff, List.length_tail]
      omega
    simp [NumberLayout.scientific, NumberLayout.yaml, numberText, exponentText, htail]
  · obtain ⟨whole, fraction, hspell, hlayout⟩ := positional_eq_spell (x.shortest .toEven).exponent hdigits hpoint
    exact ⟨whole, fraction, none, hspell, hlayout⟩

theorem ofDecimal_of_layout {x : Binary64} (hx : x.isZero = false) (hfinite : x.isFinite = true)
    (h : IsLayout (Text.decimal (x.shortest .toEven).digits) (x.shortest .toEven).exponent whole fraction exponent?) :
    Binary64.ofDecimal x.isNegative (natOf (digitsOf (whole ++ fraction))) (exponent?.getD 0 - fraction.length) =
      x := by
  obtain ⟨before, after, hpadded, hexponent, -⟩ := h.padded
  have hread : natOf (digitsOf (whole ++ fraction)) = (x.shortest .toEven).digits * 10 ^ after := by
    rw [← natFrom_layout hpadded, digitsOf, List.map_append, ← natFrom_append]
    rfl
  rw [hread, hexponent, Binary64.ofDecimal_shortest_zeros hx hfinite, ← x.eq_ofMagnitude]

/-- A finite number is spelled with the digits of its shortest decimal, and is what they are rounded to. -/
theorem exists_numberText {x : Binary64} (hfinite : x.isFinite = true) : ∃ whole fraction exponent?,
    NumberLayout.yaml.write x = numberText x.isNegative whole fraction exponent? ∧ IsWhole whole ∧
      (∀ c ∈ fraction, isDigit c = true) ∧ (fraction ≠ [] ∨ exponent?.isSome = true) ∧
        Binary64.ofDecimal x.isNegative (natOf (digitsOf (whole ++ fraction))) (exponent?.getD 0 - fraction.length) =
          x := by
  obtain ⟨hnan, hinfinite⟩ := not_isNaN_of_isFinite hfinite
  have hwrite : NumberLayout.yaml.write x = (if x.isNegative then ['-'] else []) ++ NumberLayout.yaml.magnitude x := by
    simp [NumberLayout.write, hnan, hinfinite]
  cases hx : x.isZero with
  | true =>
    refine ⟨['0'], ['0'], none, ?_, isWhole_zero, isWhole_zero.digits, .inl (List.cons_ne_nil _ _), ?_⟩
    · simp [hwrite, NumberLayout.magnitude, hx, numberText, exponentText]
    · have hmagnitude : x.magnitude = 0 := by simpa [Binary64.isZero] using hx
      conv_rhs => rw [x.eq_ofMagnitude, hmagnitude]
      rfl
  | false =>
    obtain ⟨whole, fraction, exponent?, hmagnitude, hlayout⟩ := magnitude_eq_numberText hx
    refine ⟨whole, fraction, exponent?, ?_, hlayout.isWhole, hlayout.digits, hlayout.marked,
      ofDecimal_of_layout hx hfinite hlayout⟩
    rw [hwrite, hmagnitude]
    rfl

end Magnitude

/-- A finite number is read from its text. -/
theorem meaning_write {x : Binary64} (hfinite : x.isFinite = true) :
    Plain.meaning (NumberLayout.yaml.write x) = .number x := by
  obtain ⟨whole, fraction, exponent?, hwrite, hwhole, hfraction, hmarked, hread⟩ := exists_numberText hfinite
  rw [hwrite]
  exact meaning_numberText hwhole hmarked _ hfraction hread hfinite

end TypeBundle.Yaml
