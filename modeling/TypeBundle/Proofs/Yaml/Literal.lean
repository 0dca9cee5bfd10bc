import TypeBundle.Proofs.Yaml.Scalar
/-!
# Literal blocks are scanned as they are written

A literal block keeps its lines: what has been read of it is the text so far, with the breaks at its end apart
(`Keeps`). The header says where its lines begin if its first line does not show it, and what becomes of the breaks at
its end (`reads_literal`).
-/

namespace TypeBundle.Yaml.Scanner

open Style

variable {s : Scanner} {text rest : List Char} {index line column indent : ℕ} {b : Block} {c : Char}

/-! ## Lines -/

/-- What has been read of a literal block whose lines begin at `indent`, when `cs` comes next. -/
structure Keeps (indent : ℕ) (cs : List Char) (b : Block) (read : List Char) : Prop where
  literal : b.folded = false
  kept : b.empty ++ (b.ending ++ b.text) = read
  inLine : b.inLine = true → b.empty = [] ∧ b.ending = []
  column : b.column? = some indent ∨
    b.column? = none ∧ b.least ≤ indent ∧ b.widest = 0 ∧ b.inLine = false ∧ read = [] ∧
      ∀ c ∈ cs.head?, isBreak c = false ∧ c ≠ ' '

theorem Keeps.indents {cs read : List Char} (h : Keeps indent cs b read) {column : ℕ} (hlt : column < indent) :
    b.indents column = true := by
  rcases h.column with hcolumn | ⟨hcolumn, -⟩ <;> simp [Block.indents, hcolumn, hlt]

/-- Within a line it does not matter what comes next. -/
theorem Keeps.within {cs cs' read : List Char} (h : Keeps indent cs b read) (hline : b.inLine = true) :
    Keeps indent cs' b read := by
  refine ⟨h.literal, h.kept, h.inLine, ?_⟩
  rcases h.column with hcolumn | ⟨-, -, -, hnot, -⟩
  · exact .inl hcolumn
  · simp [hline] at hnot

/-- Only the first character that comes next matters. -/
theorem Keeps.next {cs cs' read : List Char} (h : Keeps indent (cs ++ cs') b read) (hne : cs ≠ []) :
    Keeps indent cs b read := by
  obtain ⟨c, cs, rfl⟩ := List.exists_cons_of_ne_nil hne
  exact ⟨h.literal, h.kept, h.inLine, h.column⟩

/-- A character within a line. -/
theorem keeps_addToLine {cs read : List Char} (h : Keeps indent (c :: cs) b read) (hline : b.inLine = true) :
    Keeps indent cs (b.addToLine c) (c :: read) := by
  obtain ⟨hempty, hending⟩ := h.inLine hline
  have hcolumn : b.column? = some indent := by
    rcases h.column with hcolumn | ⟨-, -, -, hnot, -⟩
    · exact hcolumn
    · simp [hline] at hnot
  have hkept : b.text = read := by simpa [hempty, hending] using h.kept
  cases hc : isBreak c with
  | true =>
    refine ⟨?_, ?_, ?_, ?_⟩ <;> simp [Block.addToLine, hc, h.literal, hempty, hkept, hcolumn]
  | false =>
    refine ⟨?_, ?_, ?_, ?_⟩ <;> simp [Block.addToLine, hc, h.literal, hempty, hending, hkept, hcolumn]

/-- An empty line. -/
theorem keeps_addEmptyLine {cs read : List Char} (h : Keeps indent (c :: cs) b read) (hc : isBreak c = true)
    (hline : b.inLine = false) (column : ℕ) : Keeps indent cs (b.addEmptyLine column c) (c :: read) := by
  have hcolumn : b.column? = some indent := by
    rcases h.column with hcolumn | ⟨-, -, -, -, -, hnext⟩
    · exact hcolumn
    · simp [hc] at hnext
  refine ⟨h.literal, ?_, ?_, .inl hcolumn⟩
  · simp [Block.addEmptyLine, h.kept]
  · simp [Block.addEmptyLine, hline]

/-- The first character of a line. -/
theorem keeps_beginLine {cs read : List Char} (h : Keeps indent (c :: cs) b read) :
    Keeps indent cs (b.beginLine indent c) (c :: read) := by
  refine ⟨h.literal, ?_, ?_, .inl rfl⟩
  · simp [Block.beginLine, h.literal, h.kept]
  · simp [Block.beginLine]

section Lines

variable {cs read : List Char}

theorem read_inLine (hline : b.inLine = true) (rest : List Char) : (s.moved (.block b) index line column).read c rest =
    some (s.moved (.block (b.addToLine c)) index line column) := by
  change (s.moved _ _ _ _).block b c rest = _
  rw [block, if_pos hline]
  rfl

theorem run_lineCharacter (s : Scanner) (index line column : ℕ) (c : Char) (hline : b.inLine = true) :
    ∃ index' line' column', line ≤ line' ∧
    (isBreak c = true → line < line' ∧ column' = 0) ∧
      ∀ rest, (s.moved (.block b) index line column).run (c :: rest) =
        (s.moved (.block (b.addToLine c)) index' line' column').run rest := by
  cases hc : isBreak c with
  | true => exact ⟨index + 1, line + 1, 0, Nat.le_succ _, fun _ => ⟨Nat.lt_succ_self _, rfl⟩, fun rest =>
      run_break hc (read_inLine hline rest)⟩
  | false => exact ⟨index + 1, line, column + 1, Nat.le_refl _, by simp, fun rest =>
      run_inLine hc (read_inLine hline rest)⟩

theorem read_newLine (hline : b.inLine = false) (htab : c ≠ '\t') (rest : List Char) :
    (s.moved (.block b) index line column).read c rest =
      if b.indents column = true ∧ c = ' ' then some (s.moved (.block b) index line column)
      else if isBreak c then some (s.moved (.block (b.addEmptyLine column c)) index line column)
      else if b.columnAt column = column then some (s.moved (.block (b.beginLine column c)) index line column)
      else ((s.endScalar false b.chomped).moved .between index line column).between c rest := by
  have hnotTab : ¬(b.indents column = true ∧ c = '\t') := fun h => htab h.2
  change (s.moved (.block b) index line column).block b c rest = _
  rw [block, if_neg (by simp [hline])]
  change (if b.indents column = true ∧ c = ' ' then _ else if b.indents column = true ∧ c = '\t' then _ else _) = _
  rw [if_neg hnotTab]
  rfl

theorem not_tab (hprintable : isPrintable c = true) : c ≠ '\t' := by
  rintro rfl
  exact absurd hprintable (by decide)

theorem run_emptyLine (hprintable : isPrintable c = true) (hline : b.inLine = false) (hc : isBreak c = true) :
    (s.moved (.block b) index line 0).run (c :: rest) =
      (s.moved (.block (b.addEmptyLine 0 c)) (index + 1) (line + 1) 0).run rest := by
  have hspace : c ≠ ' ' := by
    rintro rfl
    cases hc
  refine run_break hc ?_
  rw [read_newLine hline (not_tab hprintable), if_neg (by simp [hspace]), if_pos hc]

theorem run_indentedLine (h : Keeps indent cs b read) (hline : b.inLine = false) {k : ℕ} (hk : k ≤ indent) :
    (s.moved (.block b) index line 0).run (spaces k ++ rest) = (s.moved (.block b) (index + k) line k).run rest := by
  rw [run_spaces_of_read fun index' column' _ hlt rest => ?_, Nat.zero_add]
  rw [read_newLine hline (by decide), if_pos ⟨h.indents (by omega), rfl⟩]

/-- The indentation of a line is not part of it. -/
theorem run_beginLine (h : Keeps indent (c :: cs) b read) (hprintable : isPrintable c = true) (hline : b.inLine = false)
    (hc : isBreak c = false) : (s.moved (.block b) index line 0).run (spaces indent ++ c :: rest) =
      (s.moved (.block (b.beginLine indent c)) (index + indent + 1) line (indent + 1)).run rest := by
  have hindents : ¬(b.indents indent = true ∧ c = ' ') := by
    rcases h.column with hcolumn | ⟨-, -, -, -, -, hnext⟩
    · simp [Block.indents, hcolumn]
    · exact fun hand => (hnext c rfl).2 hand.2
  have hcolumn : b.columnAt indent = indent := by
    rcases h.column with hcolumn | ⟨hcolumn, hleast, hwidest, -⟩
    · simp [Block.columnAt, hcolumn]
    · simp [Block.columnAt, hcolumn, hwidest, hleast]
  rw [run_indentedLine h hline (Nat.le_refl _)]
  refine run_inLine hc ?_
  rw [read_newLine hline (not_tab hprintable), if_neg hindents, if_neg (by simp [hc]), if_pos hcolumn]

/-- One character of a literal block. -/
theorem run_literalCharacter (s : Scanner) (index line : ℕ) (h : Keeps indent (c :: cs) b read)
    (hprintable : isPrintable c = true) (hcolumn : b.inLine = false → column = 0) :
    ∃ b' index' line' column', Keeps indent cs b' (c :: read) ∧ b'.chomping = b.chomping ∧
      b'.inLine = !isBreak c ∧ line ≤ line' ∧ (b'.inLine = false → column' = 0) ∧
        ∀ rest, (s.moved (.block b) index line column).run (indentLines indent (!b.inLine) [c] ++ rest) =
          (s.moved (.block b') index' line' column').run rest := by
  cases hline : b.inLine with
  | true =>
    obtain ⟨index', line', column', hle, hbreak, hrun⟩ :=
      run_lineCharacter s index line column c hline
    have hadd : (b.addToLine c).chomping = b.chomping ∧ (b.addToLine c).inLine = !isBreak c := by
      cases hc : isBreak c <;> simp [Block.addToLine, hc, hline]
    refine ⟨b.addToLine c, index', line', column', keeps_addToLine h hline, hadd.1, hadd.2, hle, fun hnot => ?_,
      fun rest => ?_⟩
    · exact (hbreak (by simpa [hadd.2] using hnot)).2
    · rw [← hrun]
      cases hc : isBreak c <;> simp [indentLines, hc]
  | false =>
    obtain rfl := hcolumn hline
    cases hc : isBreak c with
    | true =>
      refine ⟨b.addEmptyLine 0 c, index + 1, line + 1, 0, keeps_addEmptyLine h hc hline 0, rfl, hline, Nat.le_succ _,
        fun _ => rfl, fun rest => ?_⟩
      simp only [indentLines, hc, if_true, List.singleton_append]
      exact run_emptyLine hprintable hline hc
    | false =>
      refine ⟨b.beginLine indent c, index + indent + 1, line, indent + 1, keeps_beginLine h, rfl, rfl, Nat.le_refl _,
        by simp [Block.beginLine], fun rest => ?_⟩
      simp only [indentLines, hc, Bool.not_false, if_true, Bool.false_eq_true, if_false, List.append_assoc,
        List.singleton_append]
      exact run_beginLine h hprintable hline hc

theorem indentLines_cons (indent : ℕ) (fresh : Bool) (c : Char) (cs : List Char) :
    indentLines indent fresh (c :: cs) = indentLines indent fresh [c] ++ indentLines indent (isBreak c) cs := by
  cases hc : isBreak c <;> simp [indentLines, hc]

/-- The lines of a literal block are kept. -/
theorem run_literal (s : Scanner) (index line : ℕ) (h : Keeps indent cs b read)
    (hprintable : ∀ c ∈ cs, isPrintable c = true) (hcolumn : b.inLine = false → column = 0) :
    ∃ b' index' line' column', Keeps indent [] b' (cs.reverse ++ read) ∧
      b'.chomping = b.chomping ∧ (b'.inLine = !(cs.getLast?.map isBreak).getD (!b.inLine)) ∧ line ≤ line' ∧
        (b'.inLine = false → column' = 0) ∧
          ∀ rest, (s.moved (.block b) index line column).run (indentLines indent (!b.inLine) cs ++ rest) =
            (s.moved (.block b') index' line' column').run rest := by
  induction cs generalizing b read index line column with
  | nil => exact ⟨b, index, line, column, h, rfl, by simp, Nat.le_refl _, hcolumn, fun rest => rfl⟩
  | cons c cs ih =>
    rw [List.forall_mem_cons] at hprintable
    obtain ⟨b₁, index₁, line₁, column₁, h₁, hchomping₁, hline₁, hle₁, hcolumn₁, hrun₁⟩ :=
      run_literalCharacter s index line h hprintable.1 hcolumn
    obtain ⟨b', index', line', column', h', hchomping', hline', hle', hcolumn', hrun'⟩ :=
      ih index₁ line₁ h₁ hprintable.2 hcolumn₁
    refine ⟨b', index', line', column', by simpa using h', hchomping'.trans hchomping₁, ?_, Nat.le_trans hle₁ hle',
      hcolumn', fun rest => ?_⟩
    · rw [hline', hline₁, Bool.not_not]
      cases cs <;> rfl
    · rw [indentLines_cons, List.append_assoc, hrun₁, ← hrun', hline₁, Bool.not_not]

/-- A literal block ends before what does not belong to it. -/
theorem run_endLiteral (h : Keeps indent [] b read) (hline : b.inLine = false) (hcolumn : b.column? = some indent)
    (hfloor : s.floor ≤ indent) (hrest : Resumes s.floor rest) : (s.moved (.block b) index line 0).run rest =
      ((s.endScalar false b.chomped).moved .between index line 0).run rest := by
  cases hrest with
  | done => rfl
  | @line k c cs hk hc =>
    have hspace : c ≠ ' ' ∧ c ≠ '\t' := by simpa [isBlank] using hc.notBlank
    have hat : b.columnAt k ≠ k := by
      simp only [Block.columnAt, hcolumn, Option.getD_some]
      omega
    have hread : (s.moved (.block b) (index + k) line k).read c cs =
        ((s.endScalar false b.chomped).moved .between (index + k) line k).read c cs := by
      rw [read_newLine hline hspace.2, if_neg (by simp [hspace]), if_neg (by simp [hc.notBreak]), if_neg hat]
      rfl
    rw [run_indentedLine h hline (by omega), run_spaces, run_cons, run_cons, feed, feed, Nat.zero_add, hread]

end Lines

/-! ## Headers -/

/-- What becomes of the breaks at the end of the text. -/
inductive Chomps : Chomping → List Char → Prop
  | keep {text : List Char} : endsWithBreak text = true → Chomps .keep text
  | clip {line : List Char} {c : Char} : isBreak c = true → line ≠ [] → endsWithBreak line = false →
    Chomps .clip (line ++ [c])
  | strip {text : List Char} : endsWithBreak text = false → Chomps .strip text

theorem endsWithBreak_concat (cs : List Char) (c : Char) : endsWithBreak (cs ++ [c]) = isBreak c := by
  simp [endsWithBreak]

/-- The header of a literal block says what becomes of the breaks at its end. -/
theorem exists_header (hne : text ≠ []) : ∃ chomping, Chomps chomping text ∧ ∀ marked : Bool,
    BlockHeader.ofChars? false ((if marked then ['2'] else []) ++ chompingSign text) =
      some ⟨false, chomping, if marked then some 2 else none⟩ := by
  obtain ⟨cs, c, rfl⟩ := (List.eq_nil_or_concat text).resolve_left hne
  simp only [List.concat_eq_append] at *
  cases hc : isBreak c with
  | false =>
    have hsign : chompingSign (cs ++ [c]) = ['-'] := by simp [chompingSign, hc]
    rw [hsign]
    exact ⟨.strip, .strip (by rw [endsWithBreak_concat, hc]), fun marked => by cases marked <;> rfl⟩
  | true =>
    have hends : endsWithBreak (cs ++ [c]) = true := by rw [endsWithBreak_concat, hc]
    rcases List.eq_nil_or_concat cs with rfl | ⟨cs, d, rfl⟩
    · have hsign : chompingSign ([] ++ [c]) = ['+'] := by simp [chompingSign, hc]
      rw [hsign]
      exact ⟨.keep, .keep hends, fun marked => by cases marked <;> rfl⟩
    · simp only [List.concat_eq_append] at *
      cases hd : isBreak d with
      | true =>
        have hsign : chompingSign (cs ++ [d] ++ [c]) = ['+'] := by simp [chompingSign, hc, hd]
        rw [hsign]
        exact ⟨.keep, .keep hends, fun marked => by cases marked <;> rfl⟩
      | false =>
        have hsign : chompingSign (cs ++ [d] ++ [c]) = [] := by simp [chompingSign, hc, hd]
        rw [hsign]
        exact ⟨.clip, .clip hc (by simp) (by rw [endsWithBreak_concat, hd]), fun marked => by cases marked <;> rfl⟩

theorem run_header {cs chars : List Char} (hcs : ∀ c ∈ cs, isBreak c = false) {h : BlockHeader}
    (hheader : BlockHeader.ofChars? false (chars.reverse ++ cs) = some h) :
    (s.moved (.header false chars) index line column).run (cs ++ '\n' :: rest) =
      (s.moved (.block (.start h s.floor)) (index + cs.length + 1) (line + 1) 0).run rest := by
  induction cs generalizing chars index column with
  | nil =>
    refine run_break rfl ?_
    change (s.moved (.header false chars) index line column).endHeader false chars = _
    rw [List.append_nil] at hheader
    rw [endHeader, hheader]
    rfl
  | cons c cs ih =>
    rw [List.forall_mem_cons] at hcs
    have hread : (s.moved (.header false chars) index line column).read c (cs ++ '\n' :: rest) =
        some (s.moved (.header false (c :: chars)) index line column) := if_neg (by simp [hcs.1])
    rw [List.cons_append, run_inLine hcs.1 hread, ih hcs.2 (by simpa using hheader), List.length_cons]
    congr 2
    omega

/-- The header of a literal block, from its indicator to its line feed. -/
theorem run_literalHeader (index line : ℕ) (hs : s.Outside) (hcolumns : ∀ n ∈ s.columns.head?, n ≤ column)
    {marked : Bool} {chomping : Chomping} (hmarked : text.head?.any (fun c => c == ' ' || isBreak c) = marked)
    (hheader : BlockHeader.ofChars? false ((if marked then ['2'] else []) ++ chompingSign text) =
      some ⟨false, chomping, if marked then some 2 else none⟩) : ∃ index',
    ∀ rest, (s.moved .between index line column).run (literalHeader text ++ '\n' :: rest) =
      ({ s with keyAllowed := true }.moved (.block (.start ⟨false, chomping, if marked then some 2 else none⟩ s.floor))
        index' (line + 1) 0).run rest := by
  have hsign : ∀ c ∈ (if marked then ['2'] else []) ++ chompingSign text, isBreak c = false := by
    have hchomping : ∀ c ∈ chompingSign text, c = '-' ∨ c = '+' := by
      unfold chompingSign
      split
      · simp
      · split
        · split
          · simp
          · split <;> simp
        · simp
    intro c hc
    rcases List.mem_append.1 hc with hc | hc
    · cases marked with
      | true =>
        obtain rfl := List.mem_singleton.1 hc
        rfl
      | false => cases hc
    · rcases hchomping c hc with rfl | rfl <;> rfl
  have htoken (rest : List Char) : (s.moved .between index line column).token '|' rest =
      some ({ s with keyAllowed := true }.moved (.header false []) index line column) := by
    have hflow : (s.moved .between index line column).inFlow = false := by simp [inFlow, moved, hs.block]
    change (if (s.moved .between index line column).inFlow = true then none else _) = _
    rw [hflow, if_neg Bool.false_ne_true]
    simp [beginBlockScalar, dropKey, KeyMark.drop?, moved, hs.key]
  refine ⟨index + 1 + ((if marked then ['2'] else []) ++ chompingSign text).length + 1, fun rest => ?_⟩
  rw [literalHeader, hmarked, List.cons_append, run_content hs hcolumns (by constructor <;> decide), htoken,
    Option.bind_some, advance_inLine rfl]
  exact run_header (s := { s with keyAllowed := true }) hsign hheader

/-- The start of a literal block: if the header does not say where its lines begin, the first line shows it. -/
theorem keeps_start (n : ℕ) (chomping : Chomping) {marked : Bool}
    (hmarked : text.head?.any (fun c => c == ' ' || isBreak c) = marked) :
    Keeps (n + 2) text (.start ⟨false, chomping, if marked then some 2 else none⟩ (n + 1)) [] := by
  refine ⟨rfl, rfl, fun _ => ⟨rfl, rfl⟩, ?_⟩
  cases marked with
  | true => exact .inl (congrArg some (Nat.add_comm 2 n))
  | false =>
    refine .inr ⟨rfl, ?_, rfl, rfl, rfl, fun c hc => ?_⟩
    · simp [Block.start]
    · rw [Option.mem_def] at hc
      simp only [hc, Option.any_some, Bool.or_eq_false_iff, beq_eq_false_iff_ne] at hmarked
      exact ⟨hmarked.2, hmarked.1⟩

/-! ## Ends -/

theorem Keeps.column_of_read {read : List Char} (h : Keeps indent [] b read) (hne : read ≠ []) :
    b.column? = some indent := by
  rcases h.column with hcolumn | ⟨-, -, -, -, hnil, -⟩
  · exact hcolumn
  · exact absurd hnil hne

theorem exists_getLast_of_endsWithBreak {cs : List Char} {ends : Bool} (hne : cs ≠ []) (h : endsWithBreak cs = ends) :
    ∃ c, cs.getLast? = some c ∧ isBreak c = ends := by
  refine ⟨cs.getLast hne, List.getLast?_eq_some_getLast hne, ?_⟩
  rw [endsWithBreak, List.getLast?_eq_some_getLast hne] at h
  exact h

/-- The last line of a literal block is ended by a break, which is kept apart. -/
theorem run_lastLine (s : Scanner) (index line : ℕ) {cs : List Char} (h : Keeps indent cs b [])
    (hprintable : ∀ c ∈ cs, isPrintable c = true)
    (hline : b.inLine = false) (hne : cs ≠ []) (hends : endsWithBreak cs = false) (hc : isBreak c = true) :
    ∃ b' index' line', b'.inLine = false ∧ b'.column? = some indent ∧ b'.chomping = b.chomping ∧ b'.text = cs.reverse ∧
      b'.ending = [c] ∧ line ≤ line' ∧ Keeps indent [] b' (c :: cs.reverse) ∧
        ∀ rest, (s.moved (.block b) index line 0).run (indentLines indent true cs ++ c :: rest) =
          (s.moved (.block b') index' line' 0).run rest := by
  obtain ⟨b', index', line', column', h', hchomping, hline', hle, -, hrun⟩ :=
    run_literal s index line h hprintable fun _ => rfl
  obtain ⟨d, hd, hbreak⟩ := exists_getLast_of_endsWithBreak hne hends
  have hin : b'.inLine = true := by simp [hline', hd, hbreak]
  obtain ⟨hempty, hending⟩ := h'.inLine hin
  have hkept : b'.text = cs.reverse := by simpa [hempty, hending] using h'.kept
  obtain ⟨index₁, line₁, column₁, hle₁, hbreak₁, hrun₁⟩ :=
    run_lineCharacter s index' line' column' c hin
  obtain rfl := (hbreak₁ hc).2
  rw [hline, Bool.not_false] at hrun
  refine ⟨b'.addToLine c, index₁, line₁, ?_, ?_, ?_, ?_, ?_, Nat.le_trans hle hle₁, ?_, fun rest => ?_⟩
  · simp [Block.addToLine, hc]
  · have hcolumn := h'.column_of_read (by simpa using hne)
    simpa [Block.addToLine, hc] using hcolumn
  · simpa [Block.addToLine, hc] using hchomping
  · simpa [Block.addToLine, hc] using hkept
  · simp [Block.addToLine, hc]
  · simpa using keeps_addToLine (h'.within hin) hin
  · rw [hrun, hrun₁]

theorem indentLines_concat_break {cs : List Char} (hc : isBreak c = true) (fresh : Bool) :
    indentLines indent fresh (cs ++ [c]) = indentLines indent fresh cs ++ [c] := by
  induction cs generalizing fresh with
  | nil => simp [indentLines, hc]
  | cons d cs ih =>
    rw [List.cons_append, indentLines_cons, ih, indentLines_cons indent fresh d cs, List.append_assoc]

/-- The lines of a literal block are read as its text, with the breaks at its end as the header says. -/
theorem run_block (s : Scanner) (index line : ℕ) (h : Keeps indent text b []) (hchomps : Chomps b.chomping text)
    (hprintable : ∀ c ∈ text, isPrintable c = true) (hline : b.inLine = false) (hne : text ≠ [])
    (hfloor : s.floor ≤ indent) : ∃ index' line', line ≤ line' ∧ ∀ rest, Resumes s.floor rest →
      (s.moved (.block b) index line 0).run
          (indentLines indent true text ++ ((if endsWithBreak text then [] else ['\n']) ++ rest)) =
        ((s.endScalar false text.reverse).moved .between index' line' 0).run rest := by
  generalize hchomping : b.chomping = chomping at hchomps
  cases hchomps with
  | keep hends =>
    obtain ⟨b', index', line', column', h', hchomping', hline', hle, hcolumn, hrun⟩ :=
      run_literal s index line h hprintable fun _ => rfl
    obtain ⟨d, hd, hbreak⟩ := exists_getLast_of_endsWithBreak hne hends
    have hin : b'.inLine = false := by simp [hline', hd, hbreak]
    obtain rfl := hcolumn hin
    have hchomped : b'.chomped = text.reverse := by
      rw [Block.chomped, hchomping', hchomping]
      simpa using h'.kept
    rw [hline, Bool.not_false] at hrun
    refine ⟨index', line', hle, fun rest hrest => ?_⟩
    rw [hends, if_pos rfl, List.nil_append, hrun,
      run_endLiteral h' hin (h'.column_of_read (by simpa using hne)) hfloor hrest, hchomped]
  | @clip cs c hc hline₀ hends =>
    obtain ⟨b', index', line', hin, hcolumn, hchomping', htext, hending, hle, h', hrun⟩ := run_lastLine s index line
      (h.next hline₀) (fun d hd => hprintable d (List.mem_append_left _ hd)) hline hline₀ hends hc
    have hchomped : b'.chomped = (cs ++ [c]).reverse := by
      rw [Block.chomped, hchomping', hchomping]
      simp [htext, hending]
    refine ⟨index', line', hle, fun rest hrest => ?_⟩
    rw [endsWithBreak_concat, hc, if_pos rfl, List.nil_append, indentLines_concat_break hc, List.append_assoc,
      List.singleton_append, hrun, run_endLiteral h' hin hcolumn hfloor hrest, hchomped]
  | strip hends =>
    obtain ⟨b', index', line', hin, hcolumn, hchomping', htext, hending, hle, h', hrun⟩ :=
      run_lastLine s index line (c := '\n') h hprintable hline hne hends rfl
    have hchomped : b'.chomped = text.reverse := by
      rw [Block.chomped, hchomping', hchomping]
      exact htext
    refine ⟨index', line', hle, fun rest hrest => ?_⟩
    rw [hends, if_neg Bool.false_ne_true, List.singleton_append, hrun, run_endLiteral h' hin hcolumn hfloor hrest,
      hchomped]

/-- A text with lines is read as it is written in a literal block. -/
theorem reads_literal {n : ℕ} (hs : s.Outside) (hcolumns : s.columns.head? = some n) (hcolumn : n < column)
    (hne : text ≠ []) (h : showsLiteral text = true) :
    s.Reads column (literal (n + 2) text) [.scalar false (String.ofList text)] := by
  intro index line
  simp only [showsLiteral, Bool.and_eq_true, List.all_eq_true] at h
  have hfloor : s.floor = n + 1 := by
    obtain ⟨columns, hcons⟩ := List.head?_eq_some_iff.1 hcolumns
    rw [floor, hcons]
  have hle : ∀ m ∈ s.columns.head?, m ≤ column := fun m hm => by
    rw [hcolumns, Option.mem_some_iff] at hm
    omega
  obtain ⟨chomping, hchomps, hheader⟩ := exists_header hne
  obtain ⟨index₁, hrun₁⟩ := run_literalHeader index line hs hle rfl (hheader _)
  rw [hfloor] at hrun₁
  obtain ⟨index', line', hline, hrun⟩ := run_block { s with keyAllowed := true } index₁ (line + 1)
    (keeps_start n chomping rfl) hchomps h.1.1 rfl hne (Nat.le_trans (Nat.le_of_eq hfloor) (Nat.le_succ _))
  refine ⟨s.afterScalar false text, index', line', after_afterScalar hs _ _, fun rest hrest => ?_⟩
  have htext : literal (n + 2) text ++ rest = literalHeader text ++ '\n' :: (indentLines (n + 2) true text ++
      ((if endsWithBreak text then [] else ['\n']) ++ rest)) := by
    simp [literal]
  rw [htext, hrun₁, hrun rest hrest, endScalar, List.reverse_reverse]
  rfl

end TypeBundle.Yaml.Scanner
