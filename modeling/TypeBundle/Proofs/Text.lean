import Mathlib.Data.List.TakeWhile
import TypeBundle.Text.Blank
import TypeBundle.Text.Digits
/-!
# Digits, blanks and pieces

The digits of a number are read as the number (`readNat?_digits`). Trimming drops blanks around a text, and what was
joined is cut again into its pieces (`trim_pieces_intercalate`). A text is cut at the last separator that it has
(`cutLast?_eq_some_iff`).
-/

namespace TypeBundle.Text

/-! ## Digits -/

section Digits

variable {base : Nat}

theorem digitValue?_digitChar {n : Nat} (h : n < 16) : digitValue? n.digitChar = some n := by
  have hall : ∀ n < 16, digitValue? n.digitChar = some n := by decide
  exact hall n h

theorem readOn?_append (read : Nat) (cs ds : List Char) :
    readOn? base read (cs ++ ds) = (readOn? base read cs).bind fun read => readOn? base read ds := by
  induction cs generalizing read with
  | nil => rfl
  | cons c cs ih =>
    rw [List.cons_append, readOn?, readOn?]
    cases digitValue? c with
    | none => rfl
    | some d =>
      by_cases hd : d < base
      · simp only [hd, if_true, ih]
      · simp only [hd, if_false, Option.bind_none]

/-- Reading goes on over a digit of the base. -/
theorem readOn?_cons_eq_some_iff {c : Char} {cs : List Char} {read n : Nat} : readOn? base read (c :: cs) = some n ↔
    ∃ d, digitValue? c = some d ∧ d < base ∧ readOn? base (read * base + d) cs = some n := by
  rw [readOn?]
  cases digitValue? c <;> simp

theorem readOn?_map {f : Char → Char} {cs : List Char} (h : ∀ c ∈ cs, digitValue? (f c) = digitValue? c) (read : Nat) :
    readOn? base read (cs.map f) = readOn? base read cs := by
  induction cs generalizing read with
  | nil => rfl
  | cons c cs ih =>
    rw [List.map_cons, readOn?, readOn?, h c List.mem_cons_self]
    simp only [ih fun c hc => h c (List.mem_cons_of_mem _ hc)]

theorem readOn?_digitChar {d : Nat} (hd : d < base) (hbase : base ≤ 16) (read : Nat) :
    readOn? base read [d.digitChar] = some (read * base + d) := by
  simp [readOn?, digitValue?_digitChar (Nat.lt_of_lt_of_le hd hbase), hd]

/-- Induction along the digits, from the last one. -/
theorem readOn?_digits (h : 1 < base) (hbase : base ≤ 16) (n : Nat) : readOn? base 0 (digits base n) = some n := by
  induction n using Nat.strongRecOn with
  | ind n ih =>
    rw [digits, Nat.toDigits_eq_if h]
    split
    · rename_i hlt
      simpa using readOn?_digitChar hlt hbase 0
    · rename_i hle
      have hn : base ≤ n := Nat.not_lt.1 hle
      have hdiv : n / base < n := Nat.div_lt_self (by omega) h
      have hmod : n % base < base := Nat.mod_lt _ (by omega)
      have hhead : readOn? base 0 (Nat.toDigits base (n / base)) = some (n / base) := ih _ hdiv
      rw [readOn?_append, hhead, Option.bind_some, readOn?_digitChar hmod hbase, Nat.div_add_mod']

/-- The digits of a number are read as the number. -/
theorem readNat?_digits (h : 1 < base) (hbase : base ≤ 16) (n : Nat) : readNat? base (digits base n) = some n := by
  have hread := readOn?_digits h hbase n
  obtain ⟨c, cs, hcs⟩ := List.exists_cons_of_ne_nil (Nat.toDigits_ne_nil (n := n) (b := base))
  rw [digits, hcs] at hread ⊢
  exact hread

/-- A text with a character that is no digit is not read. -/
theorem readNat?_eq_none {c : Char} {cs : List Char} (hc : c ∈ cs) (h : ∀ d ∈ digitValue? c, base ≤ d) :
    readNat? base cs = none := by
  have hread : ∀ read, readOn? base read cs = none := by
    induction cs with
    | nil => cases hc
    | cons c' cs ih =>
      intro read
      rw [readOn?]
      cases hvalue : digitValue? c' with
      | none => rfl
      | some d =>
        rcases List.mem_cons.1 hc with rfl | hc
        · exact if_neg (Nat.not_lt.2 (h d hvalue))
        · simp only [ih hc, ite_self]
  cases cs with
  | nil => cases hc
  | cons c' cs => exact hread 0

theorem mem_digits (h : 1 < base) {n : Nat} {c : Char} (hc : c ∈ digits base n) : ∃ d < base, c = d.digitChar := by
  induction n using Nat.strongRecOn with
  | ind n ih =>
    rw [digits, Nat.toDigits_eq_if h] at hc
    split at hc
    · rename_i hlt
      exact ⟨n, hlt, List.mem_singleton.1 hc⟩
    · rename_i hle
      rcases List.mem_append.1 hc with hc | hc
      · exact ih (n / base) (Nat.div_lt_self (by omega) h) hc
      · exact ⟨n % base, Nat.mod_lt _ (by omega), List.mem_singleton.1 hc⟩

end Digits

/-! ## Blanks -/

section Blanks

variable {bs bs' cs : List Char}

theorem dropWhile_eq_self {p : Char → Bool} (h : ∀ c ∈ cs.head?, p c = false) : cs.dropWhile p = cs := by
  cases cs with
  | nil => rfl
  | cons c cs => exact List.dropWhile_cons_of_neg (by simp [h c rfl])

/-- A text that neither begins nor ends with a blank is not changed by trimming. -/
theorem trim_eq_self (hhead : ∀ c ∈ cs.head?, isBlank c = false) (hlast : ∀ c ∈ cs.getLast?, isBlank c = false) :
    trim cs = cs := by
  rw [trim, dropWhile_eq_self hhead, dropWhile_eq_self (by simpa using hlast), List.reverse_reverse]

/-- Blanks around a text without blanks are dropped. -/
theorem trim_between (hbs : ∀ b ∈ bs, isBlank b = true) (hcs : ∀ c ∈ cs, isBlank c = false)
    (hbs' : ∀ b ∈ bs', isBlank b = true) : trim (bs ++ cs ++ bs') = cs := by
  have hleft : (bs ++ (cs ++ bs')).dropWhile isBlank = (cs ++ bs').dropWhile isBlank :=
    List.dropWhile_append_of_pos hbs
  cases cs with
  | nil =>
    have hall : ∀ b ∈ bs ++ bs', isBlank b = true := List.forall_mem_append.2 ⟨hbs, hbs'⟩
    have hdrop : ((bs ++ bs') ++ []).dropWhile isBlank = [].dropWhile isBlank := List.dropWhile_append_of_pos hall
    have hnone : (bs ++ bs').dropWhile isBlank = [] := by simpa using hdrop
    rw [trim, List.append_nil, hnone, List.reverse_nil, List.dropWhile_nil, List.reverse_nil]
  | cons c cs =>
    have hright : (c :: cs ++ bs').dropWhile isBlank = c :: cs ++ bs' :=
      List.dropWhile_cons_of_neg (by simp [hcs c])
    have hback : ((c :: cs).reverse).dropWhile isBlank = (c :: cs).reverse :=
      dropWhile_eq_self fun x hx => hcs x (List.mem_reverse.1 (List.mem_of_mem_head? hx))
    rw [trim, List.append_assoc, hleft, hright, List.reverse_append, List.dropWhile_append_of_pos (by simpa using hbs'),
      hback, List.reverse_reverse]

end Blanks

/-! ## Pieces -/

section Pieces

variable {separator : Char}

theorem pieces_of_not_mem {cs : List Char} (h : separator ∉ cs) : pieces separator cs = [cs] := by
  induction cs with
  | nil => rfl
  | cons c cs ih =>
    simp only [List.mem_cons, not_or] at h
    rw [pieces, if_neg (Ne.symm h.1), ih h.2]

theorem pieces_append {cs : List Char} (h : separator ∉ cs) (ds : List Char) :
    pieces separator (cs ++ separator :: ds) = cs :: pieces separator ds := by
  induction cs with
  | nil => simp [pieces]
  | cons c cs ih =>
    simp only [List.mem_cons, not_or] at h
    rw [List.cons_append, pieces, if_neg (Ne.symm h.1), ih h.2]

/-- Texts without blanks that are joined by a separator between blanks are found again. The blanks in front are those
that the cut before has left. -/
theorem trim_pieces_intercalate {bs : List Char} {ps : List (List Char)} (hne : ps ≠ [])
    (hps : ∀ p ∈ ps, separator ∉ p ∧ ∀ c ∈ p, isBlank c = false) (hseparator : separator ≠ ' ')
    (hbs : ∀ b ∈ bs, b = ' ') :
    (pieces separator (bs ++ [' ', separator, ' '].intercalate ps)).map trim = ps := by
  induction ps generalizing bs with
  | nil => exact absurd rfl hne
  | cons p ps ih =>
    obtain ⟨hp, hrest⟩ := List.forall_mem_cons.1 hps
    have hbsBlank : ∀ b ∈ bs, isBlank b = true := fun b hb => hbs b hb ▸ rfl
    have hbsSeparator : separator ∉ bs := fun hmem => hseparator (hbs _ hmem)
    cases ps with
    | nil =>
      have htrim := trim_between hbsBlank hp.2 (List.forall_mem_nil fun b => isBlank b = true)
      rw [List.append_nil] at htrim
      rw [List.intercalate_singleton, pieces_of_not_mem (by simp [hbsSeparator, hp.1]), List.map_singleton, htrim]
    | cons q ps =>
      have hspaced : bs ++ [' ', separator, ' '].intercalate (p :: q :: ps) =
          (bs ++ p ++ [' ']) ++ separator :: ([' '] ++ [' ', separator, ' '].intercalate (q :: ps)) := by
        simp [List.intercalate_cons_cons]
      rw [hspaced, pieces_append (by simp [hbsSeparator, hp.1, hseparator]), List.map_cons,
        trim_between hbsBlank hp.2 (by simp [isBlank]), ih (List.cons_ne_nil _ _) hrest (by simp)]

theorem intercalate_ne_nil {p : List Char} (hp : p ≠ []) (between : List Char) (ps : List (List Char)) :
    between.intercalate (p :: ps) ≠ [] := by
  cases ps <;> simp [List.intercalate_cons_cons, hp]

theorem exists_mem_of_head?_intercalate {ps : List (List Char)} (hps : ∀ p ∈ ps, p ≠ []) {between : List Char}
    {c : Char} (hc : c ∈ (between.intercalate ps).head?) : ∃ p ∈ ps, c ∈ p := by
  cases ps with
  | nil => cases hc
  | cons p ps =>
    refine ⟨p, List.mem_cons_self, List.mem_of_mem_head? ?_⟩
    have hp : p ≠ [] := hps p List.mem_cons_self
    cases ps with
    | nil => simpa using hc
    | cons q ps =>
      obtain ⟨x, xs, rfl⟩ := List.exists_cons_of_ne_nil hp
      simpa [List.intercalate_cons_cons] using hc

theorem exists_mem_of_getLast?_intercalate {ps : List (List Char)} (hps : ∀ p ∈ ps, p ≠ []) {between : List Char}
    {c : Char} (hc : c ∈ (between.intercalate ps).getLast?) : ∃ p ∈ ps, c ∈ p := by
  induction ps with
  | nil => cases hc
  | cons p ps ih =>
    obtain ⟨hp, hps⟩ := List.forall_mem_cons.1 hps
    cases ps with
    | nil => exact ⟨p, List.mem_cons_self, List.mem_of_mem_getLast? (by simpa using hc)⟩
    | cons q ps =>
      have hne : between.intercalate (q :: ps) ≠ [] := intercalate_ne_nil (hps q List.mem_cons_self) _ _
      rw [List.intercalate_cons_cons, List.getLast?_append, List.getLast?_eq_some_getLast hne, Option.some_or,
        ← List.getLast?_eq_some_getLast hne] at hc
      obtain ⟨r, hr, hcr⟩ := ih hps hc
      exact ⟨r, List.mem_cons_of_mem _ hr, hcr⟩

/-- Texts without blanks that are joined begin and end without a blank. -/
theorem trim_intercalate {ps : List (List Char)} (hps : ∀ p ∈ ps, p ≠ [] ∧ ∀ c ∈ p, isBlank c = false)
    (between : List Char) : trim (between.intercalate ps) = between.intercalate ps := by
  refine trim_eq_self (fun c hc => ?_) fun c hc => ?_
  · obtain ⟨p, hp, hcp⟩ := exists_mem_of_head?_intercalate (fun p hp => (hps p hp).1) hc
    exact (hps p hp).2 c hcp
  · obtain ⟨p, hp, hcp⟩ := exists_mem_of_getLast?_intercalate (fun p hp => (hps p hp).1) hc
    exact (hps p hp).2 c hcp

end Pieces

/-! ## The last separator -/

section Last

variable {separator : Char} {cs before after : List Char}

theorem cutLast?_eq_none_iff : cutLast? separator cs = none ↔ separator ∉ cs := by
  have hdrop : separator ∉ cs ↔ cs.reverse.dropWhile (· ≠ separator) = [] := by
    rw [List.dropWhile_eq_nil_iff]
    refine ⟨fun h c hc => decide_eq_true fun heq => h (heq ▸ List.mem_reverse.1 hc), fun h hmem => ?_⟩
    simpa using h separator (List.mem_reverse.2 hmem)
  rw [hdrop, cutLast?]
  split <;> simp_all

theorem cutLast?_append (h : separator ∉ after) (before : List Char) :
    cutLast? separator (before ++ separator :: after) = some (before, after) := by
  have hpos : ∀ c ∈ after.reverse, decide (c ≠ separator) = true :=
    fun c hc => decide_eq_true fun heq => h (heq ▸ List.mem_reverse.1 hc)
  have hreverse : (before ++ separator :: after).reverse = after.reverse ++ separator :: before.reverse := by simp
  rw [cutLast?, hreverse, List.dropWhile_append_of_pos hpos, List.takeWhile_append_of_pos hpos]
  simp

/-- Behind the separator at which a text is cut there is no other. -/
theorem cutLast?_eq_some_iff :
    cutLast? separator cs = some (before, after) ↔ cs = before ++ separator :: after ∧ separator ∉ after := by
  refine ⟨fun h => ⟨eq_of_cutLast? h, fun hmem => ?_⟩, fun ⟨hcs, hafter⟩ => hcs ▸ cutLast?_append hafter before⟩
  unfold cutLast? at h
  split at h
  · cases h
  · cases h
    simpa using List.mem_takeWhile_imp (List.mem_reverse.1 hmem)

end Last

end TypeBundle.Text
