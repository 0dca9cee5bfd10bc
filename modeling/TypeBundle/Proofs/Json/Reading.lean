import TypeBundle.Proofs.Json.Numeral
import TypeBundle.Proofs.Json.Value
import TypeBundle.Proofs.Text
/-!
# What is written is read

The reader goes through the text of a value character by character and puts the tree of the value where it belongs
(`run_writeAt`). So the whole text of a value reads as its tree (`read?_write`).
-/

namespace TypeBundle.Json.Tree

namespace Reading

variable {frames : List Frame} {goal : Goal} {rest : List Char}

/-- Reads on to the end of a text. -/
def run (r : Reading) (cs : List Char) : Option Tree := (cs.foldlM feed r).bind finish

theorem read?_eq (text : String) : read? text = run start text.toList := rfl

theorem run_cons (r : Reading) (c : Char) (cs : List Char) : run r (c :: cs) = (r.feed c).bind (run · cs) := by
  rw [run, List.foldlM_cons]
  exact Option.bind_assoc ..

/-! ## Ends of tokens -/

theorem scan_of_accept {t : Tree} {r : Reading} (h : accept t frames = some r) : r.scan = .between := by
  unfold accept at h
  split at h <;> cases h <;> rfl

theorem scan_of_close {r r' : Reading} (h : r.close = some r') : r'.scan = .between := by
  unfold close at h
  split at h
  · rename_i hscan
    cases h
    exact hscan
  · split at h <;> first | exact scan_of_accept h | cases h
  · split at h
    · exact scan_of_accept h
    · cases h
  · cases h

theorem close_of_between {r : Reading} (h : r.scan = .between) : r.close = some r := by
  unfold close
  rw [h]

theorem finish_eq (r : Reading) : r.finish = r.close.bind finish := by
  cases h : r.close with
  | none => rw [finish, h, Option.bind_none]
  | some r' => rw [finish, h, Option.bind_some, finish, close_of_between (scan_of_close h)]

/-- The characters that come after a numeral or a word do not belong to it. -/
def Ends (rest : List Char) : Prop := ∀ c ∈ rest.head?, isNumeralChar c = false ∧ isWordChar c = false

/-- What has been read of a token is complete before a character that does not belong to it. -/
theorem run_close {r : Reading} (h : ∀ c ∈ rest.head?, r.feed c = r.close.bind (step · c)) :
    run r rest = r.close.bind (run · rest) := by
  cases rest with
  | nil => exact finish_eq r
  | cons c rest =>
    rw [run_cons, h c rfl, Option.bind_assoc]
    refine Option.bind_congr fun r' hr' => ?_
    obtain ⟨scan, frames, goal⟩ := r'
    obtain rfl : scan = .between := scan_of_close hr'
    rw [run_cons]
    rfl

/-- The characters of a token are kept, the last one first. -/
theorem run_collect {scan : List Char → Scan} {belongs : Char → Bool}
    (hfeed : ∀ read c, belongs c = true → feed ⟨scan read, frames, goal⟩ c = some ⟨scan (c :: read), frames, goal⟩)
    {cs : List Char} (hcs : ∀ c ∈ cs, belongs c = true) (read : List Char) :
    run ⟨scan read, frames, goal⟩ (cs ++ rest) = run ⟨scan (cs.reverse ++ read), frames, goal⟩ rest := by
  induction cs generalizing read with
  | nil => rfl
  | cons c cs ih =>
    rw [List.forall_mem_cons] at hcs
    rw [List.cons_append, run_cons, hfeed read c hcs.1, Option.bind_some, ih hcs.2, List.reverse_cons,
      List.append_assoc, List.singleton_append]

theorem run_numeral {t : Numeral} {cs read : List Char} (ht : Numeral.ofChars? (read.reverse ++ cs) = some t)
    (hcs : ∀ c ∈ cs, isNumeralChar c = true) (hrest : Ends rest) :
    run ⟨.numeral read, frames, goal⟩ (cs ++ rest) = (accept (.number t) frames).bind (run · rest) := by
  have hfeed : ∀ read c, isNumeralChar c = true →
      feed ⟨.numeral read, frames, goal⟩ c = some ⟨.numeral (c :: read), frames, goal⟩ := fun _ _ hc => if_pos hc
  rw [run_collect hfeed hcs, run_close fun c hc => by simp [feed, (hrest c hc).1]]
  simp [close, ht]

theorem run_word {t : Tree} (cs : List Char) {read : List Char}
    (ht : close ⟨.word (cs.reverse ++ read), frames, goal⟩ = accept t frames) (hcs : ∀ c ∈ cs, isWordChar c = true)
    (hrest : Ends rest) : run ⟨.word read, frames, goal⟩ (cs ++ rest) = (accept t frames).bind (run · rest) := by
  have hfeed : ∀ read c, isWordChar c = true →
      feed ⟨.word read, frames, goal⟩ c = some ⟨.word (c :: read), frames, goal⟩ := fun _ _ hc => if_pos hc
  rw [run_collect hfeed hcs, run_close fun c hc => by simp [feed, (hrest c hc).2], ht]

/-! ## Between tokens -/

theorem run_step {c : Char} {r : Reading} (h : step ⟨.between, frames, goal⟩ c = some r) (cs : List Char) :
    run ⟨.between, frames, goal⟩ (c :: cs) = run r cs := by
  rw [run_cons]
  simp only [feed, h, Option.bind_some]

theorem run_blank {c : Char} (hc : isBlank c = true) (cs : List Char) :
    run ⟨.between, frames, goal⟩ (c :: cs) = run ⟨.between, frames, goal⟩ cs := run_step (if_pos hc) cs

theorem run_newline (style : Value.Style) (depth : Nat) (cs : List Char) :
    run ⟨.between, frames, goal⟩ (style.newline depth ++ cs) = run ⟨.between, frames, goal⟩ cs := by
  cases style with
  | compact => rfl
  | pretty =>
    rw [Value.Style.newline, List.cons_append, run_blank rfl]
    induction 2 * depth with
    | zero => rfl
    | succ n ih => rw [List.replicate_succ, List.cons_append, run_blank rfl, ih]

theorem goal_of_wantsValue (h : wantsValue goal = true) : goal = .value ∨ goal = .item := by
  cases goal <;> simp_all [wantsValue]

theorem step_letter {c : Char} (hgoal : wantsValue goal = true) (hc : c = 'n' ∨ c = 't' ∨ c = 'f') :
    step ⟨.between, frames, goal⟩ c = some ⟨.word [c], frames, goal⟩ := by
  rcases goal_of_wantsValue hgoal with rfl | rfl <;> rcases hc with rfl | rfl | rfl <;> rfl

theorem step_numeral {c : Char} (hgoal : wantsValue goal = true) (hc : c = '-' ∨ Numeral.isDigit c = true) :
    step ⟨.between, frames, goal⟩ c = some ⟨.numeral [c], frames, goal⟩ := by
  have hother : isBlank c = false ∧ isWordChar c = false := by
    rcases hc with rfl | hc
    · decide
    · simp only [Numeral.isDigit, Bool.and_eq_true, decide_eq_true_eq, Char.le_def, UInt32.le_iff_toNat_le] at hc
      simp only [isBlank, isWordChar, Bool.or_eq_false_iff, beq_eq_false_iff_ne, Bool.and_eq_false_iff,
        decide_eq_false_iff_not, Char.le_def, UInt32.le_iff_toNat_le]
      refine ⟨⟨⟨⟨?_, ?_⟩, ?_⟩, ?_⟩, .inl ?_⟩
      · rintro rfl
        exact absurd hc (by decide)
      · rintro rfl
        exact absurd hc (by decide)
      · rintro rfl
        exact absurd hc (by decide)
      · rintro rfl
        exact absurd hc (by decide)
      · have hnine : ('9' : Char).val.toNat = 57 := rfl
        have ha : ('a' : Char).val.toNat = 97 := rfl
        omega
  unfold step
  rw [if_neg (by simp [hother.1])]
  split
  case h_8 => simp [hgoal, hother.2, hc]
  all_goals exact absurd hc (by decide)

/-- The text of a number is read as the number. -/
theorem run_number {t : Numeral} {cs : List Char} (hcs : Numeral.Spells cs t) (hgoal : wantsValue goal = true)
    (hrest : Ends rest) :
    run ⟨.between, frames, goal⟩ (cs ++ rest) = (accept (.number t) frames).bind (run · rest) := by
  obtain ⟨hread, hchars, c, tail, rfl, hc⟩ := hcs
  simp only [List.forall_mem_cons] at hchars
  rw [List.cons_append, run_step (step_numeral hgoal hc)]
  exact run_numeral hread hchars.2 hrest

/-! ## Strings -/

/-- How a character stands in a string: escaped by a letter, escaped by its code point, or as it is. -/
theorem escape_cases (c : Char) :
    (∃ e, Value.escape c = ['\\', e] ∧ e ≠ 'u' ∧ escapePoint? e = some c.toNat) ∨
    (Value.escape c = ['\\', 'u', '0', '0', (c.toNat / 16).digitChar, (c.toNat % 16).digitChar] ∧ c.toNat < 0x20) ∨
    (Value.escape c = [c] ∧ c ≠ '\x22' ∧ c ≠ '\\' ∧ ¬c.toNat < 0x20) := by
  unfold Value.escape
  split_ifs with hquote hbackslash hbackspace hfeed hline hreturn htab hcontrol
  · exact .inl ⟨_, rfl, by decide, by rw [hquote]; rfl⟩
  · exact .inl ⟨_, rfl, by decide, by rw [hbackslash]; rfl⟩
  · exact .inl ⟨_, rfl, by decide, by rw [hbackspace]; rfl⟩
  · exact .inl ⟨_, rfl, by decide, by rw [hfeed]; rfl⟩
  · exact .inl ⟨_, rfl, by decide, by rw [hline]; rfl⟩
  · exact .inl ⟨_, rfl, by decide, by rw [hreturn]; rfl⟩
  · exact .inl ⟨_, rfl, by decide, by rw [htab]; rfl⟩
  · exact .inr (.inl ⟨rfl, hcontrol⟩)
  · exact .inr (.inr ⟨rfl, hquote, hbackslash, hcontrol⟩)

/-- An escaped character is read as its code point. -/
theorem run_escape (points : List Nat) (c : Char) :
    run ⟨.string points, frames, goal⟩ (Value.escape c ++ rest) =
      run ⟨.string (c.toNat :: points), frames, goal⟩ rest := by
  rcases escape_cases c with ⟨e, heq, he, hpoint⟩ | ⟨heq, hc⟩ | ⟨heq, hquote, hbackslash, hcontrol⟩
  · rw [heq]
    simp [run_cons, feed, he, hpoint]
  · have hzero := Text.digitValue?_digitChar (n := 0) (by decide)
    have hhigh := Text.digitValue?_digitChar (n := c.toNat / 16) (by omega)
    have hlow := Text.digitValue?_digitChar (n := c.toNat % 16) (by omega)
    have hpoint : c.toNat / 16 * 16 + c.toNat % 16 = c.toNat := by omega
    change Text.digitValue? '0' = some 0 at hzero
    rw [heq]
    simp [run_cons, feed, hzero, hhigh, hlow, hpoint]
  · rw [heq]
    simp [run_cons, feed, hquote, hbackslash, hcontrol]

/-- No character is a surrogate. -/
theorem not_surrogate (c : Char) : isHigh c.toNat = false ∧ isLow c.toNat = false := by
  have hvalid : c.toNat < 0xD800 ∨ 0xDFFF < c.toNat ∧ c.toNat < 0x110000 := c.valid
  simp only [isHigh, isLow, Bool.and_eq_false_iff, decide_eq_false_iff_not]
  omega

theorem joinSurrogates_toNat (cs : List Char) : joinSurrogates (cs.map Char.toNat) = some cs := by
  induction cs with
  | nil => rfl
  | cons c cs ih =>
    have hvalid := not_surrogate c
    cases cs with
    | nil => simp [joinSurrogates, hvalid]
    | cons d cs =>
      simp only [List.map_cons] at ih ⊢
      simp [joinSurrogates, hvalid, ih]

theorem run_string (points : List Nat) (cs : List Char) :
    run ⟨.string points, frames, goal⟩ (cs.flatMap Value.escape ++ '\x22' :: rest) =
      (closeString ⟨.string points, frames, goal⟩ ((cs.map Char.toNat).reverse ++ points)).bind (run · rest) := by
  induction cs generalizing points with
  | nil =>
    rw [List.flatMap_nil, List.nil_append, run_cons]
    rfl
  | cons c cs ih =>
    rw [List.flatMap_cons, List.append_assoc, run_escape, ih]
    simp [closeString]

theorem run_writeString (hgoal : goal = .value ∨ goal = .item ∨ goal = .member ∨ goal = .name) (s : String) :
    run ⟨.between, frames, goal⟩ (Value.writeString s ++ rest) =
      (closeString ⟨.string [], frames, goal⟩ (s.toList.map Char.toNat).reverse).bind (run · rest) := by
  have hstep : step ⟨.between, frames, goal⟩ '\x22' = some ⟨.string [], frames, goal⟩ := by
    rcases hgoal with rfl | rfl | rfl | rfl <;> rfl
  rw [Value.writeString, List.cons_append, run_step hstep, List.append_assoc, List.singleton_append, run_string,
    List.append_nil]

/-- The text of a string that is a value is read as the string. -/
theorem run_string_value (hgoal : wantsValue goal = true) (s : String) :
    run ⟨.between, frames, goal⟩ (Value.writeString s ++ rest) =
      (accept (.string (some s)) frames).bind (run · rest) := by
  rcases goal_of_wantsValue hgoal with rfl | rfl <;> rw [run_writeString (by simp)] <;>
    simp [closeString, joinSurrogates_toNat]

/-- The text of a string that is a name is read as the name. -/
theorem run_string_name (hgoal : goal = .member ∨ goal = .name) (s : String) :
    run ⟨.between, frames, goal⟩ (Value.writeString s ++ rest) = run ⟨.between, frames, .colon (some s)⟩ rest := by
  rw [run_writeString (.inr (.inr hgoal))]
  rcases hgoal with rfl | rfl <;> simp [closeString, joinSurrogates_toNat]

/-! ## Values -/

section Values

variable {numeral : Number → Numeral} {style : Value.Style} {depth : Nat}

/-- Reading the text of the value has its tree accepted. -/
def Accepts (numeral : Number → Numeral) (style : Value.Style) (v : Value) : Prop :=
  ∀ {frames goal depth rest}, wantsValue goal = true → Ends rest →
    run ⟨.between, frames, goal⟩ (v.writeAt style depth rest) =
      (accept (ofValue numeral v) frames).bind (run · rest)

theorem ends_cons {c : Char} (h : isNumeralChar c = false ∧ isWordChar c = false) : Ends (c :: rest) := by
  intro d hd
  cases hd
  exact h

theorem ends_newline {c : Char} (h : isNumeralChar c = false ∧ isWordChar c = false) :
    Ends (style.newline depth ++ c :: rest) := by
  cases style with
  | compact => exact ends_cons h
  | pretty => exact ends_cons (by decide)

theorem ends_writeItems {items : List Value} (h : Ends rest) : Ends (Value.writeItems style depth items rest) := by
  cases items with
  | nil => simpa [Value.writeItems] using h
  | cons v vs => simpa [Value.writeItems] using ends_cons (by decide)

theorem ends_writeFields {fields : List (String × Value)} (h : Ends rest) :
    Ends (Value.writeFields style depth fields rest) := by
  cases fields with
  | nil => simpa [Value.writeFields] using h
  | cons v vs => simpa [Value.writeFields] using ends_cons (by decide)

/-- The items after the first are read one by one. -/
theorem run_writeItems {items : List Value} (h : ∀ v ∈ items, Accepts numeral style v) (hrest : Ends rest)
    (done : List Tree) :
    run ⟨.between, .array done :: frames, .separator⟩ (Value.writeItems style depth items rest) =
      run ⟨.between, .array ((items.map (ofValue numeral)).reverse ++ done) :: frames, .separator⟩ rest := by
  induction items generalizing done with
  | nil => simp [Value.writeItems]
  | cons v vs ih =>
    simp only [List.forall_mem_cons] at h
    rw [Value.writeItems, run_step (r := ⟨.between, .array done :: frames, .value⟩) rfl, run_newline,
      h.1 rfl (ends_writeItems hrest)]
    simp only [accept, Option.bind_some]
    rw [ih h.2]
    simp

/-- A field is read and put with the others. -/
theorem run_writeField {name : String} {v : Value} (h : Accepts numeral style v) (hgoal : goal = .member ∨ goal = .name)
    (hrest : Ends rest) (done : List (Option String × Tree)) :
    run ⟨.between, .object done :: frames, goal⟩ (Value.writeField style depth (name, v) rest) =
      run ⟨.between, .object ((some name, ofValue numeral v) :: done) :: frames, .separator⟩ rest := by
  have hcolon : run ⟨.between, .object done :: frames, .colon (some name)⟩ (style.colon ++ v.writeAt style depth rest) =
      run ⟨.between, .field done (some name) :: frames, .value⟩ (v.writeAt style depth rest) := by
    cases style with
    | compact => exact run_step rfl _
    | pretty => exact (run_step rfl _).trans (run_blank rfl _)
  rw [Value.writeField, run_string_name hgoal, hcolon, h rfl hrest]
  rfl

theorem run_writeFields {fields : List (String × Value)} (h : ∀ field ∈ fields, Accepts numeral style field.2)
    (hrest : Ends rest) (done : List (Option String × Tree)) :
    run ⟨.between, .object done :: frames, .separator⟩ (Value.writeFields style depth fields rest) =
      run ⟨.between, .object ((fields.map (ofField numeral)).reverse ++ done) :: frames, .separator⟩ rest := by
  induction fields generalizing done with
  | nil => simp [Value.writeFields]
  | cons field fields ih =>
    obtain ⟨name, v⟩ := field
    simp only [List.forall_mem_cons] at h
    rw [Value.writeFields, run_step (r := ⟨.between, .object done :: frames, .name⟩) rfl, run_newline,
      run_writeField h.1 (.inr rfl) (ends_writeFields hrest), ih h.2]
    simp [ofField]

theorem ofValues_eq (items : List Value) : ofValues numeral items = items.map (ofValue numeral) := by
  induction items with
  | nil => simp [ofValues]
  | cons v vs ih => simp [ofValues, ih]

theorem ofFields_eq (fields : List (String × Value)) : ofFields numeral fields = fields.map (ofField numeral) := by
  induction fields with
  | nil => simp [ofFields]
  | cons field fields ih => simp [ofFields, ih]

/-- The text of an array is read as the array. -/
theorem accepts_array {items : List Value} (h : ∀ v ∈ items, Accepts numeral style v) :
    Accepts numeral style (.array items) := by
  intro frames goal depth rest hgoal hrest
  have hopen (cs) : run ⟨.between, frames, goal⟩ ('[' :: cs) = run ⟨.between, .array [] :: frames, .item⟩ cs :=
    run_step (by rcases goal_of_wantsValue hgoal with rfl | rfl <;> rfl) cs
  cases items with
  | nil =>
    rw [Value.writeAt, hopen, run_cons]
    simp [feed, step, isBlank, ofValue, ofValues]
  | cons v vs =>
    have hclose : Ends (style.newline depth ++ ']' :: rest) := ends_newline (by decide)
    simp only [List.forall_mem_cons] at h
    rw [Value.writeAt, hopen, run_newline, h.1 rfl (ends_writeItems hclose)]
    simp only [accept, Option.bind_some]
    rw [run_writeItems h.2 hclose, run_newline, run_cons]
    simp [feed, step, isBlank, ofValue, ofValues_eq, accept]

/-- The text of an object is read as the object. -/
theorem accepts_object {fields : List (String × Value)} (h : ∀ field ∈ fields, Accepts numeral style field.2) :
    Accepts numeral style (.object fields) := by
  intro frames goal depth rest hgoal hrest
  have hopen (cs) : run ⟨.between, frames, goal⟩ ('\x7b' :: cs) = run ⟨.between, .object [] :: frames, .member⟩ cs :=
    run_step (by rcases goal_of_wantsValue hgoal with rfl | rfl <;> rfl) cs
  cases fields with
  | nil =>
    rw [Value.writeAt, hopen, run_cons]
    simp [feed, step, isBlank, ofValue, ofFields]
  | cons field fields =>
    have hclose : Ends (style.newline depth ++ '\x7d' :: rest) := ends_newline (by decide)
    obtain ⟨name, v⟩ := field
    simp only [List.forall_mem_cons] at h
    rw [Value.writeAt, hopen, run_newline, run_writeField h.1 (.inl rfl) (ends_writeFields hclose),
      run_writeFields h.2 hclose, run_newline, run_cons]
    simp [feed, step, isBlank, ofValue, ofFields_eq, ofField]

/-- The text of a value is read as its tree. -/
theorem accepts_value (hnumeral : ∀ n, Numeral.Spells n.write (numeral n)) (v : Value) : Accepts numeral style v := by
  induction v using Value.itemInduction with
  | null =>
    intro frames goal depth rest hgoal hrest
    rw [Value.writeAt, ofValue, run_step (step_letter hgoal (.inl rfl))]
    exact run_word ['u', 'l', 'l'] rfl (List.all_eq_true.1 rfl) hrest
  | bool b =>
    intro frames goal depth rest hgoal hrest
    cases b with
    | true =>
      rw [Value.writeAt, ofValue, run_step (step_letter hgoal (.inr (.inl rfl)))]
      exact run_word ['r', 'u', 'e'] rfl (List.all_eq_true.1 rfl) hrest
    | false =>
      rw [Value.writeAt, ofValue, run_step (step_letter hgoal (.inr (.inr rfl)))]
      exact run_word ['a', 'l', 's', 'e'] rfl (List.all_eq_true.1 rfl) hrest
  | number n =>
    intro frames goal depth rest hgoal hrest
    rw [Value.writeAt, run_number (hnumeral n) hgoal hrest, ofValue]
  | string s =>
    intro frames goal depth rest hgoal hrest
    rw [Value.writeAt, ofValue, run_string_value hgoal]
  | array items ih => exact accepts_array ih
  | object fields ih => exact accepts_object ih

end Values

end Reading

/-- The whole text of a value is read as its tree. -/
theorem read?_write {numeral : Number → Numeral} (hnumeral : ∀ n, Numeral.Spells n.write (numeral n))
    (style : Value.Style) (v : Value) : read? (v.write style) = some (ofValue numeral v) := by
  rw [Reading.read?_eq, Value.write, String.toList_ofList]
  refine (Reading.accepts_value hnumeral v rfl (by simp [Reading.Ends])).trans ?_
  simp only [Reading.accept, Option.bind_some]
  rfl

end TypeBundle.Json.Tree
