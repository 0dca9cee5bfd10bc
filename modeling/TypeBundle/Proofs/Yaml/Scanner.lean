import Mathlib.Data.Nat.Notation
import TypeBundle.Yaml.Token
import TypeBundle.Yaml.Style
/-!
# How the scanner goes on

A scanner that reads the rest of a text (`Scanner.run`) goes over one character after the other. Within a scalar only
its place and what it has read of the scalar change (`Scanner.moved`); between tokens blanks change nothing but the
place (`run_spaces`), and the next content is read after stale keys are forgotten and deeper collections are closed
(`run_content`).
-/

namespace TypeBundle.Yaml.Scanner

/-- Reads on to the end of a text. -/
def run (s : Scanner) (cs : List Char) : Option (List Token) := (s.feedAll cs).bind finish

/-- The scanner at another place, with something else read of a token. -/
def moved (s : Scanner) (scan : Scan) (index line column : ℕ) : Scanner := { s with scan, index, line, column }

variable {s : Scanner} {c : Char} {rest : List Char} {scan scan' : Scan} {index line column : ℕ}

theorem run_nil (s : Scanner) : s.run [] = s.finish := rfl

theorem run_cons (s : Scanner) (c : Char) (cs : List Char) : s.run (c :: cs) = (s.feed c cs).bind (·.run cs) :=
  Option.bind_assoc ..

theorem run_of_read {s' : Scanner} (h : s.read c rest = some s') : s.run (c :: rest) = (s'.advance c).run rest := by
  rw [run_cons, feed, h]
  rfl

theorem advance_inLine (hc : isBreak c = false) :
    (s.moved scan index line column).advance c = s.moved scan (index + 1) line (column + 1) := by
  simp [advance, hc, moved]

theorem advance_break (hc : isBreak c = true) :
    (s.moved scan index line column).advance c = s.moved scan (index + 1) (line + 1) 0 := by
  simp [advance, hc, moved]

theorem run_inLine (hc : isBreak c = false)
    (h : (s.moved scan index line column).read c rest = some (s.moved scan' index line column)) :
    (s.moved scan index line column).run (c :: rest) = (s.moved scan' (index + 1) line (column + 1)).run rest := by
  rw [run_of_read h, advance_inLine hc]

theorem run_break (hc : isBreak c = true)
    (h : (s.moved scan index line column).read c rest = some (s.moved scan' index line column)) :
    (s.moved scan index line column).run (c :: rest) = (s.moved scan' (index + 1) (line + 1) 0).run rest := by
  rw [run_of_read h, advance_break hc]

/-- Spaces that leave what has been read as it is. -/
theorem run_spaces_of_read {k : ℕ} (h : ∀ index' column', column ≤ column' → column' < column + k → ∀ rest,
      (s.moved scan index' line column').read ' ' rest = some (s.moved scan index' line column')) :
    (s.moved scan index line column).run (spaces k ++ rest) =
      (s.moved scan (index + k) line (column + k)).run rest := by
  induction k generalizing index column with
  | zero => rfl
  | succ k ih =>
    rw [spaces, List.replicate_succ, List.cons_append, run_inLine rfl (h index column (by omega) (by omega) _),
      Nat.add_comm k 1, ← Nat.add_assoc, ← Nat.add_assoc]
    exact ih fun index' column' hle hlt => h index' column' (by omega) (by omega)

/-! ## Between tokens -/

/-- The scanner is not in a flow collection and has no key in mind. -/
structure Outside (s : Scanner) : Prop where
  key : s.key? = none
  block : s.outerKeys = []

theorem run_spaces (k : ℕ) : (s.moved .between index line column).run (spaces k ++ rest) =
    (s.moved .between (index + k) line (column + k)).run rest := run_spaces_of_read fun _ _ _ _ _ => rfl

theorem run_space : (s.moved .between index line column).run (' ' :: rest) =
    (s.moved .between (index + 1) line (column + 1)).run rest := run_spaces 1

theorem run_lineFeed (hblock : s.outerKeys = []) : (s.moved .between index line column).run ('\n' :: rest) =
    ({ s with keyAllowed := true }.moved .between (index + 1) (line + 1) 0).run rest := by
  have hread : (s.moved .between index line column).read '\n' rest =
      some ({ s with keyAllowed := true }.moved .between index line column) := by
    simp [read, between, moved, inFlow, hblock, isBreak]
  rw [run_of_read hread, advance_break rfl]

/-- A character that begins a token. -/
structure IsContent (c : Char) : Prop where
  notBlank : isBlank c = false
  notBreak : isBreak c = false
  notComment : c ≠ '#'
  notMark : c ≠ byteOrderMark

theorem between_content (hc : IsContent c) : (s.moved .between index line column).between c rest =
    (s.moved .between index line column).expireKeys.bind fun s => s.closeDeeper.token c rest := by
  have hblank : c ≠ ' ' ∧ c ≠ '\t' := by simpa [isBlank] using hc.notBlank
  unfold between
  rw [if_neg (by simp [hc.notBreak]), if_neg (by simp [hblank, hc.notMark]), if_neg hc.notComment]
  rfl

theorem read_content (hc : IsContent c) : (s.moved .between index line column).read c rest =
    (s.moved .between index line column).expireKeys.bind fun s => s.closeDeeper.token c rest := between_content hc

theorem expireKeys_moved (hblock : s.outerKeys = []) (hkey : ∀ k ∈ s.key?, k.line < line ∧ k.required = false) :
    (s.moved scan index line column).expireKeys = some ({ s with key? := none }.moved scan index line column) := by
  cases hk : s.key? with
  | none => simp [expireKeys, KeyMark.expire?, moved, hk, hblock]
  | some k =>
    obtain ⟨hline, hrequired⟩ := hkey k hk
    simp [expireKeys, KeyMark.expire?, KeyMark.drop?, KeyMark.isStale, moved, hk, hblock, hline, hrequired]

theorem expireKeys_outside (hs : s.Outside) :
    (s.moved scan index line column).expireKeys = some (s.moved scan index line column) := by
  rw [expireKeys_moved hs.block (by simp [hs.key]), moved, moved, hs.key]

/-- Ends the innermost block collection. -/
def endBlock (s : Scanner) : Scanner := { s.push .blockEnd with columns := s.columns.tail }

theorem closeBlocks_endBlock {m : ℕ} (stays : ℕ → Bool) (hm : s.columns.head? = some m) (hstays : stays m = false) :
    s.closeBlocks stays = s.endBlock.closeBlocks stays := by
  obtain ⟨columns, hcolumns⟩ := List.head?_eq_some_iff.1 hm
  have htake : (m :: columns).takeWhile (fun n => !stays n) = m :: columns.takeWhile fun n => !stays n := by
    simp [hstays]
  have hdrop : (m :: columns).dropWhile (fun n => !stays n) = columns.dropWhile fun n => !stays n := by simp [hstays]
  have hends : ∀ k, List.replicate (k + 1) Token.blockEnd ++ s.tokens =
      List.replicate k Token.blockEnd ++ Token.blockEnd :: s.tokens := fun k => by
    rw [List.replicate_succ', List.append_assoc, List.singleton_append]
  simp only [closeBlocks, endBlock, push, hcolumns, htake, hdrop, List.tail_cons, List.map_const', List.length_cons,
    hends, Nat.add_assoc, Nat.add_comm 1]

theorem closeBlocks_eq_self {stays : ℕ → Bool} (h : ∀ n ∈ s.columns.head?, stays n = true) :
    s.closeBlocks stays = s := by
  obtain ⟨scan, index, line, column, tokens, size, columns, keyAllowed, key?, outerKeys⟩ := s
  cases columns with
  | nil => rfl
  | cons n columns => simp [closeBlocks, h n rfl]

theorem closeDeeper_eq (hblock : s.outerKeys = []) : s.closeDeeper = s.closeBlocks fun n => n ≤ s.column := by
  simp [closeDeeper, inFlow, hblock]

theorem closeDeeper_moved (hblock : s.outerKeys = []) (h : ∀ n ∈ s.columns.head?, n ≤ column) :
    (s.moved scan index line column).closeDeeper = s.moved scan index line column := by
  rw [closeDeeper_eq (s := s.moved scan index line column) hblock]
  exact closeBlocks_eq_self fun n hn => decide_eq_true (h n hn)

/-- Content at a column where no block collection ends. -/
theorem run_content (hs : s.Outside) (hcolumns : ∀ n ∈ s.columns.head?, n ≤ column) (hc : IsContent c) :
    (s.moved .between index line column).run (c :: rest) =
      ((s.moved .between index line column).token c rest).bind fun s => (s.advance c).run rest := by
  rw [run_cons, feed, read_content hc, expireKeys_outside hs, Option.bind_some, closeDeeper_moved hs.block hcolumns,
    Option.bind_map]
  rfl

/-- At the end all block collections are closed. -/
theorem finish_outside (hs : s.Outside) : (s.moved .between index line column).finish =
    some ((s.moved .between index line column).closeBlocks fun _ => false).tokens.reverse := by
  have hend : (s.moved .between index line column).endLast = some (s.moved .between index line column) := rfl
  have hclose : (s.moved .between index line column).closeAll =
      (s.moved .between index line column).closeBlocks fun _ => false := by
    simp [closeAll, inFlow, moved, hs.block]
  have hkey : ((s.moved .between index line column).closeBlocks fun _ => false).key? = none := hs.key
  simp [finish, hend, expireKeys_outside hs, hclose, dropKey, KeyMark.drop?, hkey]

/-! ## The rest of a text -/

/-- The rest of a text, after a line break, that does not belong to what begins at the column or to its right. -/
inductive Resumes (floor : ℕ) : List Char → Prop
  | done : Resumes floor []
  | line {k : ℕ} {c : Char} (cs : List Char) : k < floor → IsContent c → Resumes floor (spaces k ++ c :: cs)

theorem Resumes.mono {floor floor' : ℕ} (h : Resumes floor rest) (hle : floor ≤ floor') : Resumes floor' rest := by
  cases h with
  | done => exact .done
  | line cs hk hc => exact .line cs (Nat.lt_of_lt_of_le hk hle) hc

/-- Two scanners between tokens go on alike if they do so at the end and at any content. -/
theorem run_resumes {t : Scanner} {floor : ℕ} (hrest : Resumes floor rest)
    (hend : (s.moved .between index line 0).finish = (t.moved .between index line 0).finish)
    (hcontent : ∀ k < floor, ∀ c cs, IsContent c →
      (s.moved .between (index + k) line k).read c cs = (t.moved .between (index + k) line k).read c cs) :
    (s.moved .between index line 0).run rest = (t.moved .between index line 0).run rest := by
  cases hrest with
  | done => exact hend
  | line cs hk hc => rw [run_spaces, run_spaces, Nat.zero_add, run_cons, run_cons, feed, feed, hcontent _ hk _ _ hc]

/-- A key from an earlier line is forgotten. -/
theorem run_forget {floor : ℕ} (hblock : s.outerKeys = []) (hkey : ∀ k ∈ s.key?, k.line < line ∧ k.required = false)
    (hrest : Resumes floor rest) : (s.moved .between index line 0).run rest =
      ({ s with key? := none }.moved .between index line 0).run rest := by
  have hkeys : ∀ i c, (s.moved .between i line c).expireKeys =
      ({ s with key? := none }.moved .between i line c).expireKeys := fun i c => by
    rw [expireKeys_moved hblock hkey, expireKeys_moved (s := { s with key? := none }) hblock (by simp)]
  refine run_resumes hrest ?_ fun k _ c cs hc => ?_
  · exact congrArg (Option.bind · _) (hkeys index 0)
  · rw [read_content hc, read_content hc, hkeys]

/-- A block collection ends before what does not belong to it. -/
theorem run_endBlock {m : ℕ} (hs : s.Outside) (hm : s.columns.head? = some m) (hrest : Resumes m rest) :
    (s.moved .between index line 0).run rest = (s.endBlock.moved .between index line 0).run rest := by
  have hended : s.endBlock.Outside := ⟨hs.key, hs.block⟩
  refine run_resumes hrest ?_ fun k hk c cs hc => ?_
  · rw [finish_outside hs, finish_outside hended]
    have hclosed := closeBlocks_endBlock (s := s.moved .between index line 0) (fun _ => false) hm rfl
    exact congrArg (fun s : Scanner => some s.tokens.reverse) hclosed
  · rw [read_content hc, read_content hc, expireKeys_outside hs, expireKeys_outside hended, Option.bind_some,
      Option.bind_some, closeDeeper_eq (s := s.moved .between (index + k) line k) hs.block,
      closeDeeper_eq (s := s.endBlock.moved .between (index + k) line k) hs.block]
    have hclosed := closeBlocks_endBlock (s := s.moved .between (index + k) line k) (fun n => n ≤ k) hm
      (decide_eq_false (Nat.not_le.2 hk))
    exact congrArg (Scanner.token · c cs) hclosed

end TypeBundle.Yaml.Scanner
