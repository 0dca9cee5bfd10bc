import TypeBundle.Proofs.Yaml.Scanner
/-!
# Plain scalars are scanned as they are written

A scalar with the break after it is read as its token (`Reads`), whatever comes on the next line, provided that it does
not belong to the scalar (`Resumes`). A plain scalar goes on until then (`run_endPlain`), and its spaces are kept where
they are between other characters (`run_flows`).
-/

namespace TypeBundle.Yaml.Scanner

open Style

variable {s : Scanner} {text rest : List Char} {index line column : ℕ}

/-! ## What reading a text means -/

/-- The scanner is at the start of a line, after these tokens and with the same block collections open. -/
structure After (s : Scanner) (ts : List Token) (s' : Scanner) : Prop where
  outside : s'.Outside
  keyAllowed : s'.keyAllowed = true
  columns : s'.columns = s.columns
  tokens : s'.tokens = ts.reverse ++ s.tokens

/-- From the column on the text is read as the tokens, whatever comes on the lines after it. -/
def Reads (s : Scanner) (column : ℕ) (text : List Char) (ts : List Token) : Prop :=
  ∀ index line, ∃ s' index' line', s.After ts s' ∧ ∀ rest, Resumes s.floor rest →
    (s.moved .between index line column).run (text ++ rest) = (s'.moved .between index' line' 0).run rest

/-- The scanner has it in mind that a key may begin here. -/
def marked (s : Scanner) (index line column : ℕ) : Scanner :=
  { s with
    keyAllowed := false
    key? := if s.keyAllowed then some ⟨s.size, index, line, column, s.columns.head? == some column⟩ else none }

theorem beginScalar_moved (hs : s.Outside) (scan : Scan) :
    (s.moved .between index line column).beginScalar scan =
      some ((s.marked index line column).moved scan index line column) := by
  cases hkey : s.keyAllowed with
  | true => simp [beginScalar, markKey, dropKey, KeyMark.drop?, inFlow, moved, marked, hkey, hs.key, hs.block]
  | false => simp [beginScalar, markKey, moved, marked, hkey, hs.key]

/-- The scanner after a scalar. -/
def afterScalar (s : Scanner) (plain : Bool) (text : List Char) : Scanner :=
  { s.push (.scalar plain (String.ofList text)) with keyAllowed := true }

theorem after_afterScalar (hs : s.Outside) (plain : Bool) (text : List Char) :
    s.After [.scalar plain (String.ofList text)] (s.afterScalar plain text) :=
  ⟨⟨hs.key, hs.block⟩, rfl, rfl, rfl⟩

/-- A scalar that stands where no key must stand is no key if a line ends after it. -/
theorem run_afterScalar {index' line' floor : ℕ} (hs : s.Outside) (hcolumn : s.columns.head? ≠ some column)
    (hline : line < line') (plain : Bool) (text : List Char) (hrest : Resumes floor rest) :
    (((s.marked index line column).afterScalar plain text).moved .between index' line' 0).run rest =
      ((s.afterScalar plain text).moved .between index' line' 0).run rest := by
  rw [run_forget (s := (s.marked index line column).afterScalar plain text) hs.block ?_ hrest]
  · rw [afterScalar, afterScalar, marked, push, push]
    simp only [moved, hs.key]
  · intro k hk
    simp only [afterScalar, push, marked] at hk
    split at hk
    · obtain rfl := Option.some.inj hk
      exact ⟨hline, by simpa using hcolumn⟩
    · cases hk

/-! ## Plain scalars -/

/-- A plain scalar that is followed by a break ends before what does not belong to it. -/
theorem run_endPlain (hblock : s.outerKeys = []) {text : List Char} {first more : List Char}
    (hrest : Resumes s.floor rest) :
    (s.moved (.plain text (.breaks first more)) index line 0).run rest =
      ((s.endPlain text (.breaks first more)).moved .between index line 0).run rest := by
  cases hrest with
  | done => rfl
  | @line k c cs hk hc =>
    have hblank : isBlank c = false := hc.notBlank
    have hends : (s.moved (.plain text (.breaks first more)) (index + k) line k).endsPlain (.breaks first more) c cs =
        true := by
      have hfloor : decide (k < s.floor) = true := decide_eq_true hk
      have hflow : (s.moved (.plain text (.breaks first more)) (index + k) line k).inFlow = false := by
        simp [inFlow, moved, hblock]
      rw [endsPlain, hflow]
      simp only [Gap.isBroken, Bool.not_false, Bool.true_and]
      change (decide (k < s.floor) || _ || _ || _ || _) = true
      rw [hfloor]
      rfl
    rw [run_spaces_of_read fun _ _ _ _ _ => by simp [read, moved, plain, isBlank, Gap.addBlank], run_spaces, run_cons,
      run_cons, feed, feed, Nat.zero_add]
    have hread : (s.moved (.plain text (.breaks first more)) (index + k) line k).read c cs =
        ((s.endPlain text (.breaks first more)).moved .between (index + k) line k).read c cs := by
      change (s.moved _ _ _ _).plain text _ c cs = _
      rw [plain, if_neg (by simp [hblank]), if_neg (by simp [hc.notBreak]), if_pos hends]
      rfl
    rw [hread]

theorem isBlank_eq {c : Char} (h : isPrintable c = true) : isBlank c = (c == ' ') := by
  have htab : c ≠ '\t' := by
    rintro rfl
    exact absurd h (by decide)
  simp [isBlank, htab]

theorem endsWord_append {cs : List Char} (h : endsWord cs = false) (rest : List Char) :
    endsWord (cs ++ rest) = false := by
  cases cs with
  | nil => cases h
  | cons c cs => exact h

theorem endsPlain_eq_false (hflow : s.inFlow = false) {bs cs : List Char} {c : Char}
    (hcolon : (c == ':' && endsWord cs) = false) (hcomment : (c == '#' && !bs.isEmpty) = false) :
    s.endsPlain (.blanks bs) c (cs ++ rest) = false := by
  have hcolon' : (c == ':' && endsWord (cs ++ rest)) = false := by
    cases hc : c == ':' with
    | false => rfl
    | true => exact endsWord_append (by simpa [hc] using hcolon) rest
  have hcomment' : ((Gap.blanks bs != .empty) && c == '#') = false := by
    rw [Bool.and_comm]
    cases bs with
    | nil => exact Bool.and_false _
    | cons b bs => simpa [Gap.empty] using hcomment
  simp [endsPlain, Gap.isBroken, hflow, hcolon', hcomment']

/-- The characters of a plain scalar are kept, those of the gap at its end apart. -/
theorem run_flows (hblock : s.outerKeys = []) (index line column : ℕ) {cs bs : List Char} (t : List Char)
    (hbs : ∀ b ∈ bs, b = ' ')
    (hflows : flows (!bs.isEmpty) cs = true) : ∃ bs' t', bs' ++ t' = cs.reverse ++ (bs ++ t) ∧ (∀ b ∈ bs', b = ' ') ∧
      ∀ rest, (s.moved (.plain t (.blanks bs)) index line column).run (cs ++ rest) =
        (s.moved (.plain t' (.blanks bs')) (index + cs.length) line (column + cs.length)).run rest := by
  induction cs generalizing bs t index column with
  | nil => exact ⟨bs, t, rfl, hbs, fun rest => rfl⟩
  | cons c cs ih =>
    simp only [flows, Bool.and_eq_true, Bool.not_eq_true'] at hflows
    obtain ⟨⟨⟨⟨hcolon, hcomment⟩, hbreak⟩, hprintable⟩, hflows⟩ := hflows
    by_cases hc : c = ' '
    · subst hc
      obtain ⟨bs', t', happend, hbs', hrun⟩ := ih (index + 1) (column + 1) t (List.forall_mem_cons.2 ⟨rfl, hbs⟩)
        (by simpa using hflows)
      have hread (rest : List Char) : (s.moved (.plain t (.blanks bs)) index line column).read ' ' rest =
          some (s.moved (.plain t (.blanks (' ' :: bs))) index line column) := rfl
      refine ⟨bs', t', by simpa using happend, hbs', fun rest => ?_⟩
      rw [List.cons_append, run_inLine rfl (hread _), hrun]
      simp only [List.length_cons, Nat.add_assoc, Nat.add_comm 1]
    · obtain ⟨bs', t', happend, hbs', hrun⟩ := ih (index + 1) (column + 1) (c :: (bs ++ t)) (List.forall_mem_nil _)
        (by simpa [beq_eq_false_iff_ne.2 hc] using hflows)
      refine ⟨bs', t', by simpa using happend, hbs', fun rest => ?_⟩
      have hread : (s.moved (.plain t (.blanks bs)) index line column).read c (cs ++ rest) =
          some (s.moved (.plain (c :: (bs ++ t)) (.blanks [])) index line column) := by
        have hflow : (s.moved (.plain t (.blanks bs)) index line column).inFlow = false := by
          simp [inFlow, moved, hblock]
        change (s.moved (.plain t (.blanks bs)) index line column).plain t (.blanks bs) c (cs ++ rest) = _
        rw [plain, if_neg (by simp [isBlank_eq hprintable, hc]), if_neg (by simp [hbreak]), if_neg,
          if_neg (by simp [hflow])]
        · rfl
        · rw [endsPlain_eq_false (s := s.moved (.plain t (.blanks bs)) index line column) hflow hcolon hcomment]
          exact Bool.false_ne_true
      rw [List.cons_append, run_inLine hbreak hread, hrun]
      simp only [List.length_cons, Nat.add_assoc, Nat.add_comm 1]

theorem beginsPlain_cons {c : Char} {cs : List Char} (h : beginsPlain (c :: cs) = true) :
    c ≠ ' ' ∧ isIndicator c = false ∧ (c = '-' ∨ c = '?' ∨ c = ':' → endsWord cs = false) := by
  unfold beginsPlain at h
  split at h
  · cases h
  · cases h
  · cases h
  · rename_i heq
    obtain ⟨rfl, rfl⟩ := List.cons.inj heq
    simp only [Bool.and_eq_true, bne_iff_ne, Bool.not_eq_true'] at h
    obtain ⟨⟨hspace, hindicator⟩, hword⟩ := h
    refine ⟨hspace, hindicator, ?_⟩
    rintro (rfl | rfl | rfl) <;> exact hword

theorem content_of_showsPlain {c : Char} {cs : List Char} (h : showsPlain (c :: cs) = true) : IsContent c := by
  simp only [showsPlain, flows, Bool.and_eq_true, Bool.not_eq_true'] at h
  obtain ⟨⟨hbegins, -⟩, ⟨⟨-, hbreak⟩, hprintable⟩, -⟩ := h
  obtain ⟨hspace, hindicator, -⟩ := beginsPlain_cons hbegins
  refine ⟨by simpa [isBlank_eq hprintable] using hspace, hbreak, ?_, ?_⟩
  · rintro rfl
    exact absurd hindicator (by decide)
  · rintro rfl
    exact absurd hprintable (by decide)

theorem isMarker_eq_false (h : beginsPlain text = true) (hrest : ∀ d ∈ rest.head?, d = '\n' ∨ d = ':') :
    isMarker (text ++ rest) = false := by
  have hhead : ∀ d rest', rest = d :: rest' → d ≠ '-' ∧ d ≠ '.' := fun d rest' hcons => by
    rcases hrest d (by rw [hcons]; rfl) with rfl | rfl <;> decide
  unfold isMarker
  split
  · rename_i tail heq
    rcases text with _ | ⟨a, _ | ⟨b, _ | ⟨d, text⟩⟩⟩ <;> simp_all [beginsPlain]
  · rename_i tail heq
    rcases text with _ | ⟨a, _ | ⟨b, _ | ⟨d, text⟩⟩⟩ <;> simp_all [beginsPlain]
  · rfl

theorem token_plain {c : Char} {cs : List Char} (h : showsPlain (c :: cs) = true)
    (hrest : ∀ d ∈ rest.head?, d = '\n' ∨ d = ':') (hblock : s.outerKeys = []) :
    s.token c (cs ++ rest) = s.beginScalar (.plain [c] .empty) := by
  simp only [showsPlain, flows, Bool.and_eq_true, Bool.not_eq_true'] at h
  obtain ⟨⟨hbegins, -⟩, ⟨-, hprintable⟩, -⟩ := h
  obtain ⟨hspace, hindicator, hword⟩ := beginsPlain_cons hbegins
  have hmarker : isMarker (c :: (cs ++ rest)) = false := isMarker_eq_false hbegins hrest
  have hflow : s.inFlow = false := by simp [inFlow, hblock]
  have halone : c = '-' ∨ c = '?' ∨ c = ':' → endsWord (cs ++ rest) = false := fun hc => endsWord_append (hword hc) rest
  unfold token
  simp only [hmarker, hflow, Bool.and_false, Bool.false_or, Bool.false_eq_true, if_false]
  -- the other tokens begin with an indicator, or with a character that a blank must follow
  split <;> first | rfl | exact absurd hindicator (by decide) | exact absurd hprintable (by decide) | skip
  · exact if_neg (by simp [halone (.inl rfl)])
  · exact if_neg (by simp [halone (.inr (.inl rfl))])
  · exact if_neg (by simp [halone (.inr (.inr rfl))])

/-- A plain scalar up to the character after it. -/
theorem run_plain (hs : s.Outside) (hcolumns : ∀ n ∈ s.columns.head?, n ≤ column) (h : showsPlain text = true)
    (hrest : ∀ d ∈ rest.head?, d = '\n' ∨ d = ':') :
    (s.moved .between index line column).run (text ++ rest) =
      ((s.marked index line column).moved (.plain text.reverse .empty) (index + text.length) line
        (column + text.length)).run rest := by
  cases text with
  | nil => cases h
  | cons c cs =>
    have hcontent := content_of_showsPlain h
    have htoken : (s.moved .between index line column).token c (cs ++ rest) =
        some ((s.marked index line column).moved (.plain [c] .empty) index line column) :=
      (token_plain (s := s.moved .between index line column) h hrest hs.block).trans (beginScalar_moved hs _)
    simp only [showsPlain, flows, Bool.and_eq_true, Bool.not_eq_true', bne_iff_ne] at h
    obtain ⟨⟨hbegins, hlast⟩, -, hflows⟩ := h
    have hspace : (c == ' ') = false := beq_eq_false_iff_ne.2 (beginsPlain_cons hbegins).1
    have hmarked : (s.marked index line column).outerKeys = [] := hs.block
    obtain ⟨bs, t, happend, hbs, hrun⟩ := run_flows hmarked (index + 1) line (column + 1) [c] (List.forall_mem_nil _)
      (by simpa [hspace] using hflows)
    have hreverse : bs ++ t = (c :: cs).reverse := by simpa using happend
    -- the text does not end with a space, so no gap is left
    obtain rfl : bs = [] := by
      cases bs with
      | nil => rfl
      | cons b bs =>
        refine absurd ?_ hlast
        rw [← List.head?_reverse, ← hreverse, hbs b List.mem_cons_self]
        rfl
    obtain rfl : t = (c :: cs).reverse := hreverse
    rw [List.cons_append, run_content hs hcolumns hcontent, htoken, Option.bind_some, advance_inLine hcontent.notBreak]
    refine (hrun rest).trans ?_
    rw [List.length_cons, Nat.add_right_comm, Nat.add_right_comm column, Nat.add_assoc, Nat.add_assoc]
    rfl

/-- A plain scalar is read as it is written. -/
theorem reads_plain (hs : s.Outside) (hcolumns : ∀ n ∈ s.columns.head?, n < column) (h : showsPlain text = true) :
    s.Reads column (text ++ ['\n']) [.scalar true (String.ofList text)] := by
  intro index line
  refine ⟨s.afterScalar true text, index + text.length + 1, line + 1, after_afterScalar hs _ _, fun rest hrest => ?_⟩
  have hcolumn : s.columns.head? ≠ some column := fun hhead => Nat.lt_irrefl _ (hcolumns column hhead)
  have hbreak (index' column' : ℕ) :
      ((s.marked index line column).moved (.plain text.reverse .empty) index' line column').read '\n' rest =
        some ((s.marked index line column).moved (.plain text.reverse (.breaks ['\n'] [])) index' line column') := rfl
  rw [List.append_assoc, run_plain hs (fun n hn => Nat.le_of_lt (hcolumns n hn)) h (by simp), List.singleton_append,
    run_break rfl (hbreak _ _), run_endPlain (s := s.marked index line column) hs.block hrest,
    ← run_afterScalar hs hcolumn (Nat.lt_succ_self line) true text hrest, endPlain, endScalar, List.reverse_reverse]
  rfl

end TypeBundle.Yaml.Scanner
