import TypeBundle.Proofs.Yaml.Layout
/-!
# The characters of a written document

All characters of a written document are printable (`printable_writeAt`), since every style shows only such characters
or escapes them. So a document may hold them, no break among them is another way to write a line feed, and the text of
an object is read as its tokens (`ofText?_write`).
-/

namespace TypeBundle.Yaml

open Style

variable {text text' : List Char} {c : Char} {column : ℕ}

/-! ## Printable characters -/

/-- Every character of the text can stand in a quoted scalar without an escape. -/
def Printable (text : List Char) : Prop := ∀ c ∈ text, isPrintable c = true

@[simp] theorem isPrintable_space : isPrintable ' ' = true := by decide

@[simp] theorem isPrintable_lineFeed : isPrintable '\n' = true := by decide

@[simp] theorem printable_nil : Printable [] := nofun

@[simp] theorem printable_cons : Printable (c :: text) ↔ isPrintable c = true ∧ Printable text := List.forall_mem_cons

@[simp] theorem printable_append : Printable (text ++ text') ↔ Printable text ∧ Printable text' :=
  List.forall_mem_append

theorem printable_of_all (h : text.all isPrintable = true) : Printable text := List.all_eq_true.1 h

theorem printable_flatMap {f : Char → List Char} (h : ∀ c ∈ text, Printable (f c)) : Printable (text.flatMap f) := by
  intro d hd
  obtain ⟨c, hc, hd⟩ := List.mem_flatMap.1 hd
  exact h c hc d hd

theorem isAllowed_of_isPrintable (h : isPrintable c = true) : isAllowed c = true := by
  simp only [isPrintable, isAllowed, Bool.or_eq_true, Bool.and_eq_true, beq_iff_eq, bne_iff_ne,
    decide_eq_true_eq] at h ⊢
  omega

theorem unifyBreaks_of_printable (h : Printable text) : unifyBreaks text = text := by
  induction text with
  | nil => rfl
  | cons c cs ih =>
    rw [printable_cons] at h
    have hreturn : c ≠ '\r' := by
      rintro rfl
      exact absurd h.1 (by decide)
    have hnext : c ≠ '\u0085' := by
      rintro rfl
      exact absurd h.1 (by decide)
    rw [unifyBreaks, if_neg hreturn, if_neg hnext, ih h.2]

/-- A text of printable characters is scanned as it is. -/
theorem ofText?_of_printable (h : Printable text) : Token.ofText? text = Scanner.start.run text := by
  have hallowed : text.all isAllowed = true := List.all_eq_true.2 fun c hc => isAllowed_of_isPrintable (h c hc)
  rw [Token.ofText?, if_pos hallowed, unifyBreaks_of_printable h]
  rfl

/-! ## Scalars -/

@[simp] theorem printable_spaces (n : ℕ) : Printable (spaces n) := fun c hc => by
  rw [List.eq_of_mem_replicate hc]
  rfl

theorem printable_of_flows {afterSpace : Bool} (h : flows afterSpace text = true) : Printable text := by
  induction text generalizing afterSpace with
  | nil => exact printable_nil
  | cons c cs ih =>
    simp only [flows, Bool.and_eq_true] at h
    exact printable_cons.2 ⟨h.1.2, ih h.2⟩

theorem printable_of_showsPlain (h : showsPlain text = true) : Printable text := by
  rw [showsPlain, Bool.and_eq_true] at h
  exact printable_of_flows h.2

theorem printable_indentLines (indent : ℕ) (fresh : Bool) (h : Printable text) :
    Printable (indentLines indent fresh text) := by
  induction text generalizing fresh with
  | nil => exact printable_nil
  | cons c cs ih =>
    rw [printable_cons] at h
    cases hbreak : isBreak c <;> cases fresh <;> simp [indentLines, hbreak, h.1, ih _ h.2]

theorem printable_single (column : ℕ) (h : Printable text) : Printable (single column text) := by
  have hdoubled : Printable (text.flatMap fun c => if c = '\'' then ['\'', '\''] else [c]) := by
    refine printable_flatMap fun c hc => ?_
    split
    · exact printable_of_all rfl
    · simpa using h c hc
  have hquote : isPrintable '\'' = true := rfl
  cases hends : endsWithBreak text <;> simp [single, hends, hquote, printable_indentLines column false hdoubled]

theorem printable_hexDigits (width n : ℕ) : Printable (hexDigits width n) := by
  refine printable_append.2 ⟨fun c hc => ?_, fun c hc => ?_⟩
  · rw [List.eq_of_mem_replicate hc]
    rfl
  · have hall : ∀ v < 16, isPrintable v.digitChar.toUpper = true := by decide
    obtain ⟨d, hd, rfl⟩ := List.mem_map.1 hc
    obtain ⟨v, hv, rfl⟩ := Text.mem_digits (by decide) hd
    exact hall v hv

theorem printable_escaped (c : Char) : Printable (escaped c) := by
  have hbackslash : isPrintable '\\' = true := rfl
  cases hletter : escapeLetter? c with
  | some letter =>
    rw [escaped, hletter]
    exact printable_cons.2 ⟨hbackslash, by simpa using (Scanner.letter_of_escapeLetter hletter).2.2.2⟩
  | none =>
    rcases Scanner.escaped_cases hletter with ⟨hprintable, hescaped⟩ | ⟨letter, width, hescaped, hmark, -⟩
    · simp [hescaped, hprintable]
    · have hprintable : isPrintable letter = true := by
        unfold Scanner.hexDigits? at hmark
        split at hmark <;> first | rfl | cases hmark
      simp [hescaped, hprintable, printable_hexDigits, hbackslash]

theorem printable_double (text : List Char) : Printable (double text) := by
  have hquote : isPrintable '\x22' = true := rfl
  simp [double, hquote, printable_flatMap fun c _ => printable_escaped c]

theorem printable_literalHeader (text : List Char) : Printable (literalHeader text) := by
  have hsign : Printable (chompingSign text) := by
    unfold chompingSign
    split
    · exact printable_of_all rfl
    · split
      · split
        · exact printable_of_all rfl
        · split <;> exact printable_of_all rfl
      · exact printable_of_all rfl
  refine printable_cons.2 ⟨rfl, printable_append.2 ⟨?_, hsign⟩⟩
  split <;> exact printable_of_all rfl

theorem printable_literal (column : ℕ) (h : Printable text) : Printable (literal column text) := by
  cases hends : endsWithBreak text <;>
    simp [literal, hends, printable_literalHeader, printable_indentLines column true h]

theorem printable_scalar (column : ℕ) (text : List Char) : Printable (scalar column text) := by
  unfold scalar
  cases hstyle : Style.of text with
  | plain => simpa using printable_of_showsPlain (Scanner.of_eq_plain hstyle).2
  | single =>
    have hshows := (Scanner.of_eq_single hstyle).2
    simp only [showsSingle, Bool.and_eq_true] at hshows
    simpa using printable_single column (printable_of_all hshows.1.1)
  | double => simpa using printable_double text
  | literal =>
    have hshows := (Scanner.of_eq_literal hstyle).2
    simp only [showsLiteral, Bool.and_eq_true] at hshows
    exact printable_literal column (printable_of_all hshows.1.1)

theorem printable_writeLiteral (column : ℕ) (l : Literal) : Printable (writeLiteral column l) := by
  cases l with
  | boolean b => cases b <;> exact printable_of_all rfl
  | number x => simpa [writeLiteral] using printable_of_showsPlain (showsPlain_write x)
  | string text => exact printable_scalar column text.toList

/-! ## Documents -/

theorem printable_separator (column : ℕ) (o : Outline) : Printable (separator column o) := by
  cases o with
  | list items => cases items <;> simp [separator]
  | object fields => cases fields <;> simp [separator]
  | word | string | literal => exact printable_of_all rfl

theorem printable_writeItems {items : List Outline} (h : ∀ o ∈ items, ∀ column, Printable (writeAt column o)) :
    Printable (writeItems column items) := by
  induction items with
  | nil => exact printable_nil
  | cons o os ih =>
    rw [List.forall_mem_cons] at h
    simp [writeItems, h.1, ih h.2, show isPrintable '-' = true from rfl]

theorem printable_writeField {field : String × Outline} (hname : IsName field.1)
    (h : ∀ column, Printable (writeAt column field.2)) : Printable (writeField column field) := by
  obtain ⟨name, o⟩ := field
  simp [writeField, printable_of_showsPlain hname.plain, printable_separator, h, show isPrintable ':' = true from rfl]

theorem printable_writeFields {fields : List (String × Outline)} (hnames : ∀ f ∈ fields, IsName f.1)
    (h : ∀ f ∈ fields, ∀ column, Printable (writeAt column f.2)) : Printable (writeFields column fields) := by
  induction fields with
  | nil => exact printable_nil
  | cons field fields ih =>
    rw [List.forall_mem_cons] at hnames h
    simp [writeFields, printable_writeField hnames.1 h.1, ih hnames.2 h.2]

theorem printable_writeAt {o : Outline} (ho : Writable o) (column : ℕ) : Printable (writeAt column o) := by
  induction ho generalizing column with
  | word n => simpa [writeAt] using printable_of_showsPlain (showsPlain_decimal n.toNat)
  | string text => exact printable_scalar column text.toList
  | literal l => exact printable_writeLiteral column l
  | @list items _ _ ih =>
    cases items with
    | nil => exact printable_of_all rfl
    | cons o os =>
      rw [List.forall_mem_cons] at ih
      simp [writeAt, ih.1, printable_writeItems ih.2, show isPrintable '-' = true from rfl]
  | @object fields hne hnames _ ih =>
    obtain ⟨field, fields, rfl⟩ := List.exists_cons_of_ne_nil hne
    rw [List.forall_mem_cons] at hnames ih
    simp [writeAt, printable_writeField hnames.1 ih.1, printable_writeFields hnames.2 ih.2]

/-- The text of an object is read as its tokens. -/
theorem ofText?_write {fields : List (String × Outline)} (ho : Writable (.object fields)) :
    Token.ofText? (write (.object fields)).toList = some (tokensOf (.object fields)) := by
  rw [write, String.toList_ofList, ofText?_of_printable (printable_writeAt ho 0), Scanner.run_write ho]

end TypeBundle.Yaml
