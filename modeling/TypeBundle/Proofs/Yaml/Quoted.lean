import Mathlib.Algebra.Group.Nat.Defs
import TypeBundle.Proofs.Text
import TypeBundle.Proofs.Yaml.Scalar
/-!
# Quoted scalars are scanned as they are written

Between single quotes the breaks of a text are kept, and the indentation after them is not part of the text
(`run_single`). Between double quotes every character is read from its escape (`run_escaped`).
-/

namespace TypeBundle.Yaml.Scanner

open Style

variable {s : Scanner} {text rest : List Char} {index line column : ℕ} {gap : Gap} {t : List Char} {c : Char}

/-! ## Characters between quotes -/

def quoteOf (single : Bool) : Char := if single then '\'' else '\x22'

theorem read_break {single : Bool} (hc : isBreak c = true) (hblank : isBlank c = false) :
    (s.moved (.quoted single t gap) index line column).read c rest =
      some (s.moved (.quoted single t (gap.addBreak c)) index line column) := by
  change (s.moved _ _ _ _).quoted single t gap c rest = _
  rw [quoted, if_neg (by simp [hblank]), if_pos hc]
  rfl

/-- After the start of a line every other character comes after what the gap before it is folded to. -/
theorem read_quoted {single : Bool} (hcolumn : 0 < column) (hblank : isBlank c = false) (hbreak : isBreak c = false) :
    (s.moved (.quoted single t gap) index line column).read c rest =
      if single then
        if c = '\'' then
          if rest.head? = some '\'' then some (s.moved (.escape true (gap.folded ++ t)) index line column)
          else some ((s.endScalar false (gap.folded ++ t)).moved .between index line column)
        else some (s.moved (.quoted true (c :: (gap.folded ++ t)) .empty) index line column)
      else if c = '\x22' then some ((s.endScalar false (gap.folded ++ t)).moved .between index line column)
      else if c = '\\' then some (s.moved (.escape false (gap.folded ++ t)) index line column)
      else some (s.moved (.quoted false (c :: (gap.folded ++ t)) .empty) index line column) := by
  have hmarker : ¬(column = 0 ∧ isMarker (c :: rest) = true) := fun h => Nat.ne_of_gt hcolumn h.1
  change (s.moved _ _ _ _).quoted single t gap c rest = _
  rw [quoted, if_neg (by simp [hblank]), if_neg (by simp [hbreak])]
  exact if_neg hmarker

/-- A character that is written as it is. -/
theorem run_character {single : Bool} (hcolumn : 0 < column) (hblank : isBlank c = false) (hbreak : isBreak c = false)
    (hquote : c ≠ quoteOf single) (hescape : single = true ∨ c ≠ '\\') :
    (s.moved (.quoted single t gap) index line column).run (c :: rest) =
      (s.moved (.quoted single (c :: (gap.folded ++ t)) .empty) (index + 1) line (column + 1)).run rest := by
  refine run_inLine hbreak ?_
  rw [read_quoted hcolumn hblank hbreak]
  cases single with
  | true => rw [if_pos rfl, if_neg (show c ≠ '\'' from hquote)]
  | false => rw [if_neg Bool.false_ne_true, if_neg (show c ≠ '\x22' from hquote), if_neg (by simpa using hescape)]

/-- A single quote is written twice. -/
theorem run_quoteTwice (hcolumn : 0 < column) :
    (s.moved (.quoted true t gap) index line column).run ('\'' :: '\'' :: rest) =
      (s.moved (.quoted true ('\'' :: (gap.folded ++ t)) .empty) (index + 2) line (column + 2)).run rest := by
  have hread : (s.moved (.quoted true t gap) index line column).read '\'' ('\'' :: rest) =
      some (s.moved (.escape true (gap.folded ++ t)) index line column) := read_quoted hcolumn rfl rfl
  rw [run_inLine rfl hread]
  exact run_inLine rfl rfl

theorem run_closingQuote {single : Bool} (hcolumn : 0 < column) (hrest : rest.head? ≠ some '\'') :
    (s.moved (.quoted single t gap) index line column).run (quoteOf single :: rest) =
      ((s.endScalar false (gap.folded ++ t)).moved .between (index + 1) line (column + 1)).run rest := by
  have hblank : isBlank (quoteOf single) = false := by cases single <;> rfl
  have hbreak : isBreak (quoteOf single) = false := by cases single <;> rfl
  have hread : (s.moved (.quoted single t gap) index line column).read (quoteOf single) rest =
      some ((s.endScalar false (gap.folded ++ t)).moved .between index line column) := by
    rw [read_quoted hcolumn hblank hbreak]
    cases single with
    | true => rw [if_pos rfl, quoteOf, if_pos rfl, if_pos rfl, if_neg hrest]
    | false => rfl
  rw [run_of_read hread, advance_inLine hbreak]

/-- A quoted scalar whose body is read as the text is read as a scalar with the text. -/
theorem reads_quoted {single : Bool} {body : List Char} (hs : s.Outside) (hcolumns : ∀ n ∈ s.columns.head?, n < column)
    (hbody : ∀ (s : Scanner) (index line column : ℕ), 0 < column → ∃ gap t index' line' column',
      gap.folded ++ t = text.reverse ∧ line ≤ line' ∧ 0 < column' ∧
        ∀ rest, (s.moved (.quoted single [] .empty) index line column).run (body ++ rest) =
          (s.moved (.quoted single t gap) index' line' column').run rest) :
    s.Reads column (quoteOf single :: (body ++ [quoteOf single, '\n'])) [.scalar false (String.ofList text)] := by
  intro index line
  obtain ⟨gap, t, index', line', column', htext, hline, hcolumn', hrun⟩ :=
    hbody (s.marked index line column) (index + 1) line (column + 1) (Nat.succ_pos _)
  have hcontent : IsContent (quoteOf single) := by cases single <;> constructor <;> decide
  have htoken (rest : List Char) : (s.moved .between index line column).token (quoteOf single) rest =
      some ((s.marked index line column).moved (.quoted single [] .empty) index line column) := by
    rw [← beginScalar_moved hs]
    cases single <;> rfl
  have hcolumn : s.columns.head? ≠ some column := fun hhead => Nat.lt_irrefl _ (hcolumns column hhead)
  refine ⟨s.afterScalar false text, index' + 2, line' + 1, after_afterScalar hs _ _, fun rest hrest => ?_⟩
  rw [List.cons_append, List.append_assoc, run_content hs (fun n hn => Nat.le_of_lt (hcolumns n hn)) hcontent, htoken,
    Option.bind_some, advance_inLine hcontent.notBreak, hrun, List.cons_append, run_closingQuote hcolumn' (by simp),
    List.singleton_append, run_lineFeed (s := (s.marked index line column).endScalar false _) hs.block,
    ← run_afterScalar hs hcolumn (Nat.lt_succ_of_le hline) false text hrest, htext, endScalar, List.reverse_reverse]
  rfl

/-! ## Between single quotes -/

/-- The gap is one that text may follow without a change: no break after spaces, and no space after a break. -/
inductive GapBefore : List Char → Gap → Prop
  | none (cs : List Char) : GapBefore cs (.blanks [])
  | spaces {cs : List Char} (bs : List Char) : (∀ c ∈ cs.head?, isBreak c = false) → GapBefore cs (.blanks bs)
  | breaks {cs : List Char} {b : Char} (more : List Char) : b ≠ '\n' → (∀ c ∈ cs.head?, c ≠ ' ') →
    GapBefore cs (.breaks [b] more)

/-- Single quotes are written twice. -/
def doubled (cs : List Char) : List Char := cs.flatMap fun c => if c = '\'' then ['\'', '\''] else [c]

theorem run_indentation {indent : ℕ} :
    (s.moved (.quoted true t gap) index line column).run ((if gap.isBroken then spaces indent else []) ++ rest) =
      (s.moved (.quoted true t gap) (index + if gap.isBroken then indent else 0) line
        (column + if gap.isBroken then indent else 0)).run rest := by
  cases gap with
  | blanks bs => rfl
  | breaks first more => exact run_spaces_of_read fun _ _ _ _ _ => rfl

theorem folded_addBreak {b : Char} {more : List Char} (hb : b ≠ '\n') (c : Char) :
    ((Gap.breaks [b] more).addBreak c).folded = c :: (Gap.breaks [b] more).folded := by
  simp [Gap.addBreak, Gap.folded, hb]

theorem indentLines_doubled (indent : ℕ) (fresh : Bool) (c : Char) (cs : List Char) :
    indentLines indent fresh (doubled (c :: cs)) =
      indentLines indent fresh (doubled [c]) ++ indentLines indent (isBreak c) (doubled cs) := by
  by_cases hquote : c = '\''
  · subst hquote
    simp [doubled, indentLines, show isBreak '\'' = false from rfl]
  · cases hbreak : isBreak c <;> simp [doubled, indentLines, hquote, hbreak]

/-- The characters between single quotes are read as they are written, from this gap on up to another one. -/
def KeepsSingle (s : Scanner) (indent : ℕ) (gap : Gap) (t : List Char) (index line column : ℕ) (cs : List Char)
    (gap' : Gap) : Prop :=
  ∃ t' index' line' column', gap'.folded ++ t' = cs.reverse ++ (gap.folded ++ t) ∧ line ≤ line' ∧
    (gap'.isBroken = false → 0 < column') ∧
      ∀ rest, (s.moved (.quoted true t gap) index line column).run
          (indentLines indent gap.isBroken (doubled cs) ++ rest) =
        (s.moved (.quoted true t' gap') index' line' column').run rest

section Step

variable {indent : ℕ} {cs : List Char}

theorem keepsSingle_space (hbefore : noSpaceBeforeBreak (' ' :: cs) = true) (hgap : GapBefore (' ' :: cs) gap) :
    ∃ gap', GapBefore cs gap' ∧ gap'.isBroken = false ∧ s.KeepsSingle indent gap t index line column [' '] gap' := by
  obtain ⟨bs, rfl⟩ : ∃ bs, gap = .blanks bs := by
    cases hgap with
    | none => exact ⟨_, rfl⟩
    | spaces bs => exact ⟨_, rfl⟩
    | breaks _ _ hnext => exact absurd rfl (hnext ' ' rfl)
  refine ⟨.blanks (' ' :: bs), .spaces _ fun d hd => ?_, rfl, t, index + 1, line, column + 1, rfl, Nat.le_refl _,
    fun _ => Nat.succ_pos _, fun rest => run_inLine rfl rfl⟩
  obtain ⟨cs, rfl⟩ := List.head?_eq_some_iff.1 hd
  simpa [noSpaceBeforeBreak] using (Bool.and_eq_true_iff.1 hbefore).1

theorem keepsSingle_break (hprintable : isPrintable c = true) (hbreak : isBreak c = true) (hfeed : c ≠ '\n')
    (hafter : noSpaceAfterBreak (c :: cs) = true) (hgap : GapBefore (c :: cs) gap) :
    ∃ gap', GapBefore cs gap' ∧ gap'.isBroken = true ∧ s.KeepsSingle indent gap t index line column [c] gap' := by
  have hspace : c ≠ ' ' := by
    rintro rfl
    cases hbreak
  have hquote : c ≠ '\'' := by
    rintro rfl
    cases hbreak
  have hnext : ∀ d ∈ cs.head?, d ≠ ' ' := fun d hd => by
    obtain ⟨cs, rfl⟩ := List.head?_eq_some_iff.1 hd
    simpa [noSpaceAfterBreak, hbreak] using (Bool.and_eq_true_iff.1 hafter).1
  obtain ⟨hgap', hfolded⟩ : GapBefore cs (gap.addBreak c) ∧ (gap.addBreak c).folded = c :: gap.folded := by
    have hblanks : GapBefore cs (.breaks [c] []) ∧ (Gap.breaks [c] []).folded = c :: (Gap.blanks []).folded :=
      ⟨.breaks [] hfeed hnext, by simp [Gap.folded, hfeed]⟩
    cases hgap with
    | none => exact hblanks
    | spaces bs hbs => simp [hbs c rfl] at hbreak
    | breaks more hb => exact ⟨.breaks _ hb hnext, folded_addBreak hb c⟩
  have hlines : indentLines indent gap.isBroken (doubled [c]) = [c] := by
    simp [doubled, indentLines, hquote, hbreak]
  refine ⟨gap.addBreak c, hgap', by cases gap <;> rfl, t, index + 1, line + 1, 0, by simp [hfolded], Nat.le_succ _, ?_,
    fun rest => ?_⟩
  · cases gap <;> simp [Gap.addBreak, Gap.isBroken]
  · rw [hlines]
    exact run_break hbreak (read_break hbreak (by simp [isBlank_eq hprintable, hspace]))

theorem keepsSingle_other (hindent : 0 < indent) (hprintable : isPrintable c = true) (hbreak : isBreak c = false)
    (hspace : c ≠ ' ') (hcolumn : gap.isBroken = false → 0 < column) :
    s.KeepsSingle indent gap t index line column [c] .empty := by
  have hblank : isBlank c = false := by simp [isBlank_eq hprintable, hspace]
  have hlines : indentLines indent gap.isBroken (doubled [c]) =
      (if gap.isBroken then spaces indent else []) ++ doubled [c] := by
    by_cases hquote : c = '\'' <;> simp [doubled, indentLines, hquote, hbreak, show isBreak '\'' = false from rfl]
  have hpos : 0 < column + if gap.isBroken then indent else 0 := by
    cases hbroken : gap.isBroken with
    | true => exact Nat.add_pos_right _ hindent
    | false => exact hcolumn hbroken
  have hrun : ∃ k, ∀ i rest, (s.moved (.quoted true t gap) i line (column + if gap.isBroken then indent else 0)).run
      (doubled [c] ++ rest) = (s.moved (.quoted true (c :: (gap.folded ++ t)) .empty) (i + k) line
        (column + (if gap.isBroken then indent else 0) + k)).run rest := by
    by_cases hquote : c = '\''
    · subst hquote
      exact ⟨2, fun i rest => run_quoteTwice hpos⟩
    · refine ⟨1, fun i rest => ?_⟩
      rw [doubled, List.flatMap_singleton, if_neg hquote, List.singleton_append]
      exact run_character hpos hblank hbreak hquote (.inl rfl)
  obtain ⟨k, hrun⟩ := hrun
  refine ⟨c :: (gap.folded ++ t), index + (if gap.isBroken then indent else 0) + k, line,
    column + (if gap.isBroken then indent else 0) + k, rfl, Nat.le_refl _, fun _ => Nat.add_pos_left hpos k,
    fun rest => ?_⟩
  rw [hlines, List.append_assoc, run_indentation, hrun]

end Step

/-- The text between single quotes is kept. The induction carries the gap before the text that is left. -/
theorem run_single {indent : ℕ} (s : Scanner) (t : List Char) (index line column : ℕ) (hindent : 0 < indent)
    {cs : List Char} (hprintable : ∀ c ∈ cs, isPrintable c = true) (hfeed : '\n' ∉ cs)
    (hbefore : noSpaceBeforeBreak cs = true) (hafter : noSpaceAfterBreak cs = true) (hgap : GapBefore cs gap)
    (hcolumn : gap.isBroken = false → 0 < column) :
    ∃ gap', gap'.isBroken = (cs.getLast?.map isBreak).getD gap.isBroken ∧
      s.KeepsSingle indent gap t index line column cs gap' := by
  induction cs generalizing gap t index line column with
  | nil => exact ⟨gap, rfl, t, index, line, column, rfl, Nat.le_refl _, hcolumn, fun rest => rfl⟩
  | cons c cs ih =>
    rw [List.forall_mem_cons] at hprintable
    rw [List.mem_cons, not_or] at hfeed
    obtain ⟨gap₁, hgap₁, hbroken₁, t₁, index₁, line₁, column₁, happend₁, hline₁, hcolumn₁, hrun₁⟩ :
        ∃ gap', GapBefore cs gap' ∧ gap'.isBroken = isBreak c ∧
          s.KeepsSingle indent gap t index line column [c] gap' := by
      by_cases hspace : c = ' '
      · subst hspace
        exact keepsSingle_space hbefore hgap
      · cases hbreak : isBreak c with
        | true => exact keepsSingle_break hprintable.1 hbreak (Ne.symm hfeed.1) hafter hgap
        | false => exact ⟨_, .none _, rfl, keepsSingle_other hindent hprintable.1 hbreak hspace hcolumn⟩
    have htails : noSpaceBeforeBreak cs = true ∧ noSpaceAfterBreak cs = true := by
      cases cs with
      | nil => exact ⟨rfl, rfl⟩
      | cons d cs => exact ⟨(Bool.and_eq_true_iff.1 hbefore).2, (Bool.and_eq_true_iff.1 hafter).2⟩
    obtain ⟨gap', hbroken, t', index', line', column', happend, hline, hcolumn', hrun⟩ :=
      ih t₁ index₁ line₁ column₁ hprintable.2 hfeed.2 htails.1 htails.2 hgap₁ hcolumn₁
    refine ⟨gap', ?_, t', index', line', column', ?_, Nat.le_trans hline₁ hline, hcolumn', fun rest => ?_⟩
    · rw [hbroken, hbroken₁]
      cases cs <;> rfl
    · rw [happend, happend₁]
      simp
    · rw [indentLines_doubled, List.append_assoc, hrun₁, ← hbroken₁, hrun]

/-- A text without line feeds is read as it is written between single quotes. -/
theorem reads_single {indent : ℕ} (hs : s.Outside) (hcolumns : ∀ n ∈ s.columns.head?, n < column) (hindent : 0 < indent)
    (hfeed : '\n' ∉ text) (h : showsSingle text = true) :
    s.Reads column (single indent text ++ ['\n']) [.scalar false (String.ofList text)] := by
  simp only [showsSingle, Bool.and_eq_true, List.all_eq_true] at h
  obtain ⟨⟨hprintable, hbefore⟩, hafter⟩ := h
  have hsingle : single indent text ++ ['\n'] = quoteOf true :: (indentLines indent false (doubled text) ++
      (if endsWithBreak text then spaces indent else []) ++ [quoteOf true, '\n']) := by
    simp [single, quoteOf, doubled]
  rw [hsingle]
  refine reads_quoted hs hcolumns fun s index line column hcolumn => ?_
  obtain ⟨gap, hbroken, t, index', line', column', happend, hline, hcolumn', hrun⟩ :=
    run_single s [] index line column hindent hprintable hfeed hbefore hafter (.none _) fun _ => hcolumn
  have hends : endsWithBreak text = gap.isBroken := by
    rw [hbroken, endsWithBreak]
    cases text.getLast? <;> rfl
  refine ⟨gap, t, index' + (if gap.isBroken then indent else 0), line', column' + (if gap.isBroken then indent else 0),
    by simpa [Gap.empty, Gap.folded] using happend, hline, ?_, fun rest => ?_⟩
  · cases hgap : gap.isBroken with
    | true => exact Nat.add_pos_right _ hindent
    | false => exact hcolumn' hgap
  · rw [List.append_assoc]
    exact (hrun _).trans (by rw [hends, run_indentation])

/-! ## Between double quotes -/

/-- A letter stands for its character and is no mark of a code point. -/
theorem letter_of_escapeLetter {letter : Char} (h : escapeLetter? c = some letter) :
    escapedChar? letter = some c ∧ hexDigits? letter = none ∧ isBreak letter = false ∧ isPrintable letter = true := by
  obtain ⟨l, l', htable, -⟩ := List.lookup_eq_some_iff.1 h
  have hmem : (c, letter) ∈ l ++ (c, letter) :: l' := List.mem_append_right _ List.mem_cons_self
  rw [← htable] at hmem
  clear htable
  simp only [List.mem_cons, Prod.mk.injEq, List.not_mem_nil, or_false] at hmem
  rcases hmem with h | h | h | h | h | h | h | h | h | h | h | h | h | h <;> obtain ⟨rfl, rfl⟩ := h <;> decide

theorem not_special_of_escapeLetter (h : escapeLetter? c = none) :
    isBreak c = false ∧ c ≠ '\x22' ∧ c ≠ '\\' := by
  refine ⟨?_, ?_, ?_⟩
  · cases hbreak : isBreak c with
    | false => rfl
    | true =>
      simp only [isBreak, Bool.or_eq_true, beq_iff_eq] at hbreak
      rcases hbreak with (rfl | rfl) | rfl <;> cases h
  · rintro rfl
    cases h
  · rintro rfl
    cases h

/-- The digits of a code point have their width and are read as the code point. -/
theorem hexDigits_spec {width n : ℕ} (hwidth : 0 < width) (hn : n < 16 ^ width) :
    (hexDigits width n).length = width ∧ Text.readOn? 16 0 (hexDigits width n) = some n := by
  have hlength : (Text.digits 16 n).length ≤ width := (Nat.length_toDigits_le_iff (by decide) hwidth).2 hn
  have hzeros : ∀ k, Text.readOn? 16 0 (List.replicate k '0') = some 0 := fun k => by
    induction k with
    | zero => rfl
    | succ k ih => exact ih
  have hupper : ∀ c ∈ Text.digits 16 n, Text.digitValue? c.toUpper = Text.digitValue? c := fun c hc => by
    have hall : ∀ d < 16, Text.digitValue? d.digitChar.toUpper = Text.digitValue? d.digitChar := by decide
    obtain ⟨d, hd, rfl⟩ := Text.mem_digits (by decide) hc
    exact hall d hd
  constructor
  · simp only [hexDigits, List.length_append, List.length_replicate, List.length_map]
    omega
  · simp only [hexDigits]
    rw [Text.readOn?_append, hzeros, Option.bind_some, Text.readOn?_map hupper]
    exact Text.readOn?_digits (by decide) (by decide) n

theorem not_break_of_digit {d : Char} {v : ℕ} (h : Text.digitValue? d = some v) : isBreak d = false := by
  cases hd : isBreak d with
  | false => rfl
  | true =>
    simp only [isBreak, Bool.or_eq_true, beq_iff_eq] at hd
    rcases hd with (rfl | rfl) | rfl <;> cases h

/-- The digits of a code point are read as its character. -/
theorem run_hex {d : Char} {ds : List Char} {point n : ℕ} (hread : Text.readOn? 16 point (d :: ds) = some n)
    (hn : n.isValidChar) :
    (s.moved (.hex t (ds.length + 1) point) index line column).run (d :: ds ++ rest) =
      (s.moved (.quoted false (Char.ofNat n :: t) .empty) (index + (ds.length + 1)) line
        (column + (ds.length + 1))).run rest := by
  induction ds generalizing d point index column with
  | nil =>
    obtain ⟨v, hvalue, -, hread⟩ := Text.readOn?_cons_eq_some_iff.1 hread
    obtain rfl : point * 16 + v = n := Option.some.inj hread
    refine run_inLine (not_break_of_digit hvalue) ?_
    change (s.moved _ _ _ _).hex t 1 point d = _
    rw [hex, hvalue]
    have hguard : (guard (point * 16 + v).isValidChar : Option Unit) = some () := if_pos hn
    rw [Option.bind_eq_bind, Option.bind_some, if_neg (Nat.lt_irrefl 1), hguard]
    rfl
  | cons d' ds ih =>
    obtain ⟨v, hvalue, -, hread⟩ := Text.readOn?_cons_eq_some_iff.1 hread
    have hfeed : (s.moved (.hex t (ds.length + 1 + 1) point) index line column).read d (d' :: ds ++ rest) =
        some (s.moved (.hex t (ds.length + 1) (point * 16 + v)) index line column) := by
      change (s.moved _ _ _ _).hex t (ds.length + 1 + 1) point d = _
      rw [hex, hvalue]
      rw [Option.bind_eq_bind, Option.bind_some, if_pos (Nat.lt_add_of_pos_left (Nat.succ_pos _))]
      rfl
    rw [List.cons_append, List.length_cons, run_inLine (not_break_of_digit hvalue) hfeed, ih hread]
    congr 2 <;> omega

section Escapes

variable {bs : List Char} {letter : Char}

theorem run_backslash (hcolumn : 0 < column) :
    (s.moved (.quoted false t (.blanks bs)) index line column).run ('\\' :: rest) =
      (s.moved (.escape false (bs ++ t)) (index + 1) line (column + 1)).run rest :=
  run_inLine rfl (read_quoted hcolumn rfl rfl)

theorem run_letter (hletter : escapeLetter? c = some letter) :
    (s.moved (.escape false t) index line column).run (letter :: rest) =
      (s.moved (.quoted false (c :: t) .empty) (index + 1) line (column + 1)).run rest := by
  obtain ⟨hchar, hhex, hbreak, -⟩ := letter_of_escapeLetter hletter
  refine run_inLine hbreak ?_
  change (s.moved _ _ _ _).escape false t letter = _
  rw [escape, if_neg Bool.false_ne_true, if_neg (by simp [hbreak]), hhex, hchar]
  rfl

theorem run_codePoint {width : ℕ} (hletter : hexDigits? letter = some width) (hbreak : isBreak letter = false)
    (hwidth : 0 < width) (hc : c.toNat < 16 ^ width) :
    (s.moved (.escape false t) index line column).run (letter :: (hexDigits width c.toNat ++ rest)) =
      (s.moved (.quoted false (c :: t) .empty) (index + 1 + width) line (column + 1 + width)).run rest := by
  have hfeed : (s.moved (.escape false t) index line column).read letter (hexDigits width c.toNat ++ rest) =
      some (s.moved (.hex t width 0) index line column) := by
    change (s.moved _ _ _ _).escape false t letter = _
    rw [escape, if_neg Bool.false_ne_true, if_neg (by simp [hbreak]), hletter]
    rfl
  obtain ⟨hlength, hread⟩ := hexDigits_spec hwidth hc
  rw [run_inLine hbreak hfeed]
  generalize hexDigits width c.toNat = ds at hlength hread ⊢
  cases ds with
  | nil => exact absurd hlength (Nat.ne_of_lt hwidth)
  | cons d ds =>
    obtain rfl : ds.length + 1 = width := hlength
    rw [run_hex hread c.valid, Char.ofNat_toNat]

/-- How a character that has no letter stands between double quotes. -/
theorem escaped_cases (hletter : escapeLetter? c = none) : (isPrintable c = true ∧ escaped c = [c]) ∨
    ∃ letter width, escaped c = '\\' :: letter :: hexDigits width c.toNat ∧ hexDigits? letter = some width ∧
      isBreak letter = false ∧ 0 < width ∧ c.toNat < 16 ^ width := by
  have hvalid : c.toNat < 0x110000 := by
    have hcases : c.toNat < 0xD800 ∨ 0xDFFF < c.toNat ∧ c.toNat < 0x110000 := c.valid
    omega
  rw [escaped, hletter]
  by_cases hprintable : isPrintable c = true
  · exact .inl ⟨hprintable, if_pos hprintable⟩
  · refine .inr ?_
    simp only [hprintable]
    by_cases hbyte : c.toNat ≤ 0xFF
    · exact ⟨'x', 2, if_pos hbyte, rfl, rfl, by decide, by omega⟩
    · rw [if_neg hbyte]
      by_cases hplane : c.toNat ≤ 0xFFFF
      · exact ⟨'u', 4, if_pos hplane, rfl, rfl, by decide, by omega⟩
      · exact ⟨'U', 8, if_neg hplane, rfl, rfl, by decide, by omega⟩

/-- A character between double quotes is read from its escape. -/
theorem run_escaped (s : Scanner) (bs t : List Char) (index line : ℕ) (c : Char) (hcolumn : 0 < column) :
    ∃ bs' t' index' column', 0 < column' ∧ bs' ++ t' = c :: (bs ++ t) ∧
      ∀ rest, (s.moved (.quoted false t (.blanks bs)) index line column).run (escaped c ++ rest) =
        (s.moved (.quoted false t' (.blanks bs')) index' line column').run rest := by
  cases hletter : escapeLetter? c with
  | some letter =>
    refine ⟨[], c :: (bs ++ t), index + 1 + 1, column + 1 + 1, Nat.succ_pos _, rfl, fun rest => ?_⟩
    have hescaped : escaped c = ['\\', letter] := by rw [escaped, hletter]
    rw [hescaped, List.cons_append, run_backslash hcolumn]
    exact run_letter hletter
  | none =>
    rcases escaped_cases hletter with ⟨hprintable, hescaped⟩ | ⟨letter, width, hescaped, hmark, hbreak, hwidth, hc⟩
    · obtain ⟨hbreak, hquote, hescape⟩ := not_special_of_escapeLetter hletter
      rw [hescaped]
      by_cases hspace : c = ' '
      · subst hspace
        exact ⟨' ' :: bs, t, index + 1, column + 1, Nat.succ_pos _, rfl, fun rest => run_inLine rfl rfl⟩
      · refine ⟨[], c :: (bs ++ t), index + 1, column + 1, Nat.succ_pos _, rfl, fun rest => ?_⟩
        exact run_character hcolumn (by simp [isBlank_eq hprintable, hspace]) hbreak hquote (.inr hescape)
    · refine ⟨[], c :: (bs ++ t), index + 1 + 1 + width, column + 1 + 1 + width, by omega, rfl, fun rest => ?_⟩
      rw [hescaped, List.cons_append, List.cons_append, run_backslash hcolumn]
      exact run_codePoint hmark hbreak hwidth hc

theorem run_double (s : Scanner) (bs t cs : List Char) (index line : ℕ) (hcolumn : 0 < column) :
    ∃ bs' t' index' column', 0 < column' ∧ bs' ++ t' = cs.reverse ++ (bs ++ t) ∧
      ∀ rest, (s.moved (.quoted false t (.blanks bs)) index line column).run (cs.flatMap escaped ++ rest) =
        (s.moved (.quoted false t' (.blanks bs')) index' line column').run rest := by
  induction cs generalizing bs t index column with
  | nil => exact ⟨bs, t, index, column, hcolumn, rfl, fun rest => rfl⟩
  | cons c cs ih =>
    obtain ⟨bs₁, t₁, index₁, column₁, hcolumn₁, happend₁, hrun₁⟩ :=
      run_escaped s bs t index line c hcolumn
    obtain ⟨bs', t', index', column', hcolumn', happend, hrun⟩ := ih bs₁ t₁ index₁ hcolumn₁
    refine ⟨bs', t', index', column', hcolumn', ?_, fun rest => ?_⟩
    · rw [happend, happend₁]
      simp
    · rw [List.flatMap_cons, List.append_assoc, hrun₁, hrun]

end Escapes

/-- Any text is read as it is written between double quotes. -/
theorem reads_double (hs : s.Outside) (hcolumns : ∀ n ∈ s.columns.head?, n < column) (text : List Char) :
    s.Reads column (double text ++ ['\n']) [.scalar false (String.ofList text)] := by
  have hdouble : double text ++ ['\n'] = quoteOf false :: (text.flatMap escaped ++ [quoteOf false, '\n']) := by
    simp [double, quoteOf]
  rw [hdouble]
  refine reads_quoted hs hcolumns fun s index line column hcolumn => ?_
  obtain ⟨bs, t, index', column', hcolumn', happend, hrun⟩ :=
    run_double s [] [] text index line hcolumn
  exact ⟨.blanks bs, t, index', line, column', by simpa [Gap.folded] using happend, Nat.le_refl _, hcolumn', hrun⟩

end TypeBundle.Yaml.Scanner
