import TypeBundle.Proofs.Yaml.Literal
import TypeBundle.Proofs.Yaml.Plain
import TypeBundle.Proofs.Yaml.Quoted
import TypeBundle.Yaml.Write
/-!
# Outlines are scanned as they are written

The tokens of an outline are those of its scalars, with marks for fields and items and around mappings (`tokensOf`).
If its fields have plain names and its items are no lists (`Writable`), an outline is read as its tokens, at the value
of a field as well as at an item (`readsBoth_of_writable`), and so is the text of a whole object (`run_write`).
-/

namespace TypeBundle.Yaml

/-! ## Tokens -/

/-- A name of fields, which needs no quotes and stands no further from its colon than a key may. -/
structure IsName (name : String) : Prop where
  plain : Style.showsPlain name.toList = true
  short : name.toList.length ≤ 1024

instance (name : String) : Decidable (IsName name) :=
  decidable_of_iff (Style.showsPlain name.toList = true ∧ name.toList.length ≤ 1024)
    ⟨fun h => ⟨h.1, h.2⟩, fun h => ⟨h.plain, h.short⟩⟩

def isList : Outline → Bool
  | .list _ => true
  | _ => false

/-- Objects have fields with plain names, and the items of lists are no lists themselves. -/
inductive Writable : Outline → Prop
  | word (n : UInt64) : Writable (.word n)
  | string (s : String) : Writable (.string s)
  | literal (l : Literal) : Writable (.literal l)
  | list {items : List Outline} : (∀ o ∈ items, Writable o) → (∀ o ∈ items, isList o = false) → Writable (.list items)
  | object {fields : List (String × Outline)} : fields ≠ [] → (∀ f ∈ fields, IsName f.1) →
    (∀ f ∈ fields, Writable f.2) → Writable (.object fields)

def stringToken (s : String) : Token := .scalar (Style.of s.toList == .plain) s

def literalToken : Literal → Token
  | .boolean b => .scalar true (if b then "true" else "false")
  | .number x => .scalar true (String.ofList (NumberLayout.yaml.write x))
  | .string s => stringToken s

mutual
/-- The tokens of an outline. -/
def tokensOf : Outline → List Token
  | .word n => [.scalar true (String.ofList (Text.decimal n.toNat))]
  | .string s => [stringToken s]
  | .literal l => [literalToken l]
  | .list [] => [.flowSequence, .flowSequenceEnd]
  | .list (o :: os) => .entry :: (tokensOf o ++ itemTokens os)
  | .object fields => .blockMapping :: (fieldTokens fields ++ [.blockEnd])

def itemTokens : List Outline → List Token
  | [] => []
  | o :: os => .entry :: (tokensOf o ++ itemTokens os)

def fieldTokens : List (String × Outline) → List Token
  | [] => []
  | field :: fields => oneFieldTokens field ++ fieldTokens fields

def oneFieldTokens : String × Outline → List Token
  | (name, o) => .key :: .scalar true name :: .value :: tokensOf o
end

namespace Scanner

open Style

variable {s : Scanner} {text rest : List Char} {index line column m n : ℕ} {ts : List Token}

/-! ## Scalars -/

/-! ### Styles -/

theorem of_eq_plain {text : List Char} (h : Style.of text = .plain) :
    isPlainString text = true ∧ showsPlain text = true := by
  unfold Style.of at h
  split_ifs at h with _ _ hplain
  exact Bool.and_eq_true_iff.1 hplain

theorem of_eq_single {text : List Char} (h : Style.of text = .single) : '\n' ∉ text ∧ showsSingle text = true := by
  unfold Style.of at h
  split_ifs at h with hfeed _ _ hsingle
  exact ⟨by simpa using hfeed, hsingle⟩

theorem of_eq_literal {text : List Char} (h : Style.of text = .literal) : text ≠ [] ∧ showsLiteral text = true := by
  unfold Style.of at h
  split_ifs at h with hfeed hliteral
  refine ⟨?_, hliteral⟩
  rintro rfl
  cases hfeed

/-- A string is read as it is written, in whichever style. -/
theorem reads_string (hs : s.Outside) (hcolumns : s.columns.head? = some n) (hcolumn : n < column) (text : String) :
    s.Reads column (scalar (n + 2) text.toList) [stringToken text] := by
  have hlt : ∀ m ∈ s.columns.head?, m < column := fun m hm => by
    rw [hcolumns, Option.mem_some_iff] at hm
    omega
  have htext : String.ofList text.toList = text := String.ofList_toList
  unfold scalar stringToken
  cases hstyle : Style.of text.toList with
  | plain =>
    have hread := reads_plain hs hlt (of_eq_plain hstyle).2
    rw [htext] at hread
    exact hread
  | single =>
    have hread := reads_single hs hlt (Nat.succ_pos (n + 1)) (of_eq_single hstyle).1 (of_eq_single hstyle).2
    rw [htext] at hread
    exact hread
  | double =>
    have hread := reads_double hs hlt text.toList
    rw [htext] at hread
    exact hread
  | literal =>
    have hread := reads_literal hs hcolumns hcolumn (of_eq_literal hstyle).1 (of_eq_literal hstyle).2
    rw [htext] at hread
    exact hread

/-- A literal is read as it is written. -/
theorem reads_writeLiteral (hs : s.Outside) (hcolumns : s.columns.head? = some n) (hcolumn : n < column) (l : Literal) :
    s.Reads column (writeLiteral (n + 2) l) [literalToken l] := by
  have hlt : ∀ m ∈ s.columns.head?, m < column := fun m hm => by
    rw [hcolumns, Option.mem_some_iff] at hm
    omega
  cases l with
  | boolean b => cases b <;> exact reads_plain hs hlt (by decide)
  | number x => exact reads_plain hs hlt (showsPlain_write x)
  | string text => exact reads_string hs hcolumns hcolumn text

/-! ## Texts one after the other -/

theorem Reads.append {text' : List Char} {ts' : List Token} (h : s.Reads column text ts)
    (h' : ∀ s', s.After ts s' → s'.Reads 0 text' ts')
    (hresumes : ∀ rest, Resumes s.floor rest → Resumes s.floor (text' ++ rest)) :
    s.Reads column (text ++ text') (ts ++ ts') := by
  intro index line
  obtain ⟨s₁, index₁, line₁, hafter₁, hrun₁⟩ := h index line
  obtain ⟨s', index', line', hafter', hrun'⟩ := h' s₁ hafter₁ index₁ line₁
  have hfloor : s₁.floor = s.floor := by rw [floor, floor, hafter₁.columns]
  refine ⟨s', index', line', ⟨hafter'.outside, hafter'.keyAllowed, hafter'.columns.trans hafter₁.columns, ?_⟩,
    fun rest hrest => ?_⟩
  · rw [hafter'.tokens, hafter₁.tokens, List.reverse_append, List.append_assoc]
  · rw [List.append_assoc, hrun₁ _ (hresumes rest hrest), hrun' rest (hfloor ▸ hrest)]

theorem reads_nil (hs : s.Outside) (hkey : s.keyAllowed = true) : s.Reads 0 [] [] := fun index line =>
  ⟨s, index, line, ⟨hs, hkey, rfl, rfl⟩, fun _ _ => rfl⟩

theorem Reads.spaces (h : s.Reads m text ts) : s.Reads 0 (spaces m ++ text) ts := by
  intro index line
  obtain ⟨s', index', line', hafter, hrun⟩ := h (index + m) line
  refine ⟨s', index', line', hafter, fun rest hrest => ?_⟩
  rw [List.append_assoc, run_spaces, Nat.zero_add, hrun rest hrest]

theorem Reads.space (h : s.Reads (column + 1) text ts) : s.Reads column (' ' :: text) ts := by
  intro index line
  obtain ⟨s', index', line', hafter, hrun⟩ := h (index + 1) line
  refine ⟨s', index', line', hafter, fun rest hrest => ?_⟩
  rw [List.cons_append, run_space, hrun rest hrest]

/-- After a line feed a key is allowed. -/
theorem Reads.lineFeed (hs : s.Outside) (h : ({ s with keyAllowed := true } : Scanner).Reads 0 text ts) :
    s.Reads column ('\n' :: text) ts := by
  intro index line
  obtain ⟨s', index', line', hafter, hrun⟩ := h (index + 1) (line + 1)
  refine ⟨s', index', line', ⟨hafter.outside, hafter.keyAllowed, hafter.columns, hafter.tokens⟩, fun rest hrest => ?_⟩
  rw [List.cons_append, run_lineFeed hs.block]
  exact hrun rest hrest

/-! ## Lists -/

/-- An empty list. -/
theorem reads_noItems (hs : s.Outside) (hkey : s.keyAllowed = false) (hcolumns : ∀ n ∈ s.columns.head?, n ≤ column) :
    s.Reads column ['[', ']', '\n'] [.flowSequence, .flowSequenceEnd] := by
  intro index line
  -- the scanner within the brackets
  let t : Scanner := { s.push .flowSequence with outerKeys := [none], keyAllowed := true }
  have hopen (rest : List Char) : (s.moved .between index line column).token '[' rest =
      some (t.moved .between index line column) := by
    change (s.moved .between index line column).openFlow .flowSequence = _
    simp [openFlow, markKey, moved, hkey, hs.key, hs.block, t, push]
  have hclose (rest : List Char) : (t.moved .between (index + 1) line (column + 1)).read ']' rest =
      some ({ (s.push .flowSequence).push .flowSequenceEnd with keyAllowed := false }.moved .between (index + 1) line
        (column + 1)) := by
    have hkeys : (t.moved .between (index + 1) line (column + 1)).expireKeys =
        some (t.moved .between (index + 1) line (column + 1)) := by
      simp [expireKeys, KeyMark.expire?, moved, t, push, hs.key]
    rw [read_content (by constructor <;> decide), hkeys, Option.bind_some]
    change (t.moved .between (index + 1) line (column + 1)).closeFlow .flowSequenceEnd = _
    simp [closeFlow, dropKey, KeyMark.drop?, moved, t, push, hs.key, hs.block]
  refine ⟨{ (s.push .flowSequence).push .flowSequenceEnd with keyAllowed := true }, index + 3, line + 1,
    ⟨⟨hs.key, hs.block⟩, rfl, rfl, rfl⟩, fun rest _ => ?_⟩
  rw [List.cons_append, run_content hs hcolumns (by constructor <;> decide), hopen, Option.bind_some,
    advance_inLine rfl, List.cons_append, run_of_read (hclose _), advance_inLine rfl]
  exact run_lineFeed (s := { (s.push .flowSequence).push .flowSequenceEnd with keyAllowed := false }) hs.block

/-- The dash before an item. -/
theorem reads_entry (hs : s.Outside) (hkey : s.keyAllowed = true) (hcolumns : s.columns.head? = some m)
    (h : ({ s.push .entry with keyAllowed := true } : Scanner).Reads (m + 2) text ts) :
    s.Reads m ('-' :: ' ' :: text) (.entry :: ts) := by
  intro index line
  obtain ⟨s', index', line', hafter, hrun⟩ := h (index + 2) line
  obtain ⟨columns, hcons⟩ := List.head?_eq_some_iff.1 hcolumns
  have htoken (rest : List Char) : (s.moved .between index line m).token '-' (' ' :: rest) =
      some ({ s.push .entry with keyAllowed := true }.moved .between index line m) := by
    have hmarker : isMarker ('-' :: ' ' :: rest) = false := rfl
    have hdash : (s.moved .between index line m).token '-' (' ' :: rest) = (s.moved .between index line m).entry := by
      simp only [token, hmarker, Bool.and_false, Bool.false_eq_true, if_false]
      rfl
    rw [hdash]
    simp [entry, openBlock, isDeeper, inFlow, moved, dropKey, KeyMark.drop?, push, hkey, hcons, hs.key, hs.block]
  refine ⟨s', index', line', ⟨hafter.outside, hafter.keyAllowed, hafter.columns, ?_⟩, fun rest hrest => ?_⟩
  · rw [hafter.tokens, List.reverse_cons, List.append_assoc]
    rfl
  · rw [List.cons_append, List.cons_append, run_content hs (by simp [hcolumns]) (by constructor <;> decide), htoken,
      Option.bind_some, advance_inLine rfl, run_space]
    exact hrun rest hrest

/-- At an item the outline is read as its tokens. -/
def ReadsItem (o : Outline) : Prop :=
  ∀ ⦃s : Scanner⦄ ⦃n : ℕ⦄, s.Outside → s.keyAllowed = true → s.columns.head? = some n →
    s.Reads (n + 2) (writeAt (n + 2) o) (tokensOf o)

/-- At the value of a field the outline is read as its tokens. -/
def ReadsValue (o : Outline) : Prop :=
  ∀ ⦃s : Scanner⦄ ⦃n column : ℕ⦄, s.Outside → s.keyAllowed = false → s.columns.head? = some n → n < column →
    s.Reads column (separator n o ++ writeAt (valueColumn n o) o) (tokensOf o)

theorem floor_eq (hcolumns : s.columns.head? = some m) : s.floor = m + 1 := by
  obtain ⟨columns, hcons⟩ := List.head?_eq_some_iff.1 hcolumns
  rw [floor, hcons]

theorem resumes_items {items : List Outline} (hrest : Resumes (m + 1) rest) :
    Resumes (m + 1) (writeItems m items ++ rest) := by
  cases items with
  | nil => exact hrest
  | cons o os =>
    rw [writeItems, List.append_assoc]
    exact .line _ (Nat.lt_succ_self m) (by constructor <;> decide)

/-- The items of a list, at the column of the mapping around it. -/
theorem reads_items {items : List Outline} (hitems : ∀ o ∈ items, ReadsItem o) (hs : s.Outside)
    (hkey : s.keyAllowed = true) (hcolumns : s.columns.head? = some m) :
    s.Reads 0 (writeItems m items) (itemTokens items) := by
  induction items generalizing s with
  | nil => exact reads_nil hs hkey
  | cons o os ih =>
    rw [List.forall_mem_cons] at hitems
    rw [writeItems, itemTokens]
    refine Reads.spaces (reads_entry hs hkey hcolumns ?_)
    refine Reads.append (hitems.1 ⟨hs.key, hs.block⟩ rfl hcolumns) (fun s' hafter => ?_) fun rest hrest => ?_
    · exact ih hitems.2 hafter.outside hafter.keyAllowed (by rw [hafter.columns]; exact hcolumns)
    · rw [floor_eq (s := { s.push .entry with keyAllowed := true }) hcolumns] at hrest ⊢
      exact resumes_items hrest

/-! ## Objects -/

/-- The scanner after the name of a field and its colon. -/
def named (s : Scanner) (name : String) : Scanner :=
  { s with
    tokens := .value :: .scalar true name :: .key :: s.tokens
    size := s.size + 3
    keyAllowed := false
    key? := none }

/-- The scanner in a mapping that begins at the column. -/
def openMapping (s : Scanner) (m : ℕ) : Scanner := { s.push .blockMapping with columns := m :: s.columns }

theorem expireKeys_fresh {k : KeyMark} (hblock : s.outerKeys = []) (hk : s.key? = some k)
    (hfresh : k.isStale line index = false) (scan : Scan) :
    (s.moved scan index line column).expireKeys = some (s.moved scan index line column) := by
  simp [expireKeys, KeyMark.expire?, moved, hk, hblock, hfresh]

/-- The colon after the name of a field. -/
theorem valueOf_named (hs : s.Outside) (hcolumns : ∀ n ∈ s.columns.head?, n ≤ m) (name : String) {k : KeyMark}
    (htokens : k.tokens = s.size) (hcolumn : k.column = m) :
    ({ s.push (.scalar true name) with keyAllowed := false, key? := some k }.moved .between index line column).valueOf
      k = ((if s.columns.head? = some m then s else s.openMapping m).named name).moved .between index line column := by
  have hsize : s.size + 1 + 1 - s.size = 2 := by omega
  cases hcons : s.columns with
  | nil =>
    simp [hsize, valueOf, insert, push, isDeeper, inFlow, moved, named, openMapping, htokens, hcolumn, hcons, hs.block]
  | cons n columns =>
    have hle : n ≤ m := hcolumns n (by rw [hcons]; rfl)
    by_cases heq : n = m
    · simp [valueOf, insert, push, isDeeper, inFlow, moved, named, htokens, hcolumn, hcons, hs.block, heq]
    · have hlt : n < m := by omega
      simp [hsize, valueOf, insert, push, isDeeper, inFlow, moved, named, openMapping, htokens, hcolumn, hcons,
        hs.block, heq, hlt]

/-- The name of a field begins a mapping where it is deeper than what is open. -/
theorem run_name {name : String} (hs : s.Outside) (hkey : s.keyAllowed = true)
    (hcolumns : ∀ n ∈ s.columns.head?, n ≤ m) (hname : IsName name) (hrest : endsWord rest = true) :
    (s.moved .between index line m).run (name.toList ++ ':' :: rest) =
      (((if s.columns.head? = some m then s else s.openMapping m).named name).moved .between
        (index + name.toList.length + 1) line (m + name.toList.length + 1)).run rest := by
  -- the key that the scanner has in mind, and the scanner when the name has ended
  let k : KeyMark := ⟨s.size, index, line, m, s.columns.head? == some m⟩
  let t : Scanner := { s.push (.scalar true name) with keyAllowed := false, key? := some k }
  have hmarked : s.marked index line m = { s with keyAllowed := false, key? := some k } := by
    rw [marked, if_pos hkey]
  have hend : (s.marked index line m).endPlain name.toList.reverse .empty = { t with scan := .between } := by
    rw [endPlain, endScalar, List.reverse_reverse, String.ofList_toList, hmarked]
    rfl
  have hkeys (scan : Scan) : (t.moved scan (index + name.toList.length) line (m + name.toList.length)).expireKeys =
      some (t.moved scan (index + name.toList.length) line (m + name.toList.length)) := by
    have hshort := hname.short
    refine expireKeys_fresh (s := t) (k := k) hs.block rfl ?_ scan
    simp only [KeyMark.isStale, k, Bool.or_eq_false_iff, decide_eq_false_iff_not]
    omega
  have hread : ((s.marked index line m).moved (.plain name.toList.reverse .empty) (index + name.toList.length) line
      (m + name.toList.length)).read ':' rest =
        some (((if s.columns.head? = some m then s else s.openMapping m).named name).moved .between
          (index + name.toList.length) line (m + name.toList.length)) := by
    change Scanner.plain _ name.toList.reverse .empty ':' rest = _
    rw [plain, if_neg (by decide), if_neg (by decide), if_pos (by simp [endsPlain, hrest])]
    change (((s.marked index line m).endPlain name.toList.reverse .empty).moved .between (index + name.toList.length)
      line (m + name.toList.length)).between ':' rest = _
    have hclose : (t.moved .between (index + name.toList.length) line (m + name.toList.length)).closeDeeper =
        t.moved .between (index + name.toList.length) line (m + name.toList.length) :=
      closeDeeper_moved (s := t) hs.block fun n hn => Nat.le_trans (hcolumns n hn) (Nat.le_add_right _ _)
    have hcolon : (t.moved .between (index + name.toList.length) line (m + name.toList.length)).token ':' rest =
        some ((t.moved .between (index + name.toList.length) line (m + name.toList.length)).valueOf k) := by
      change (if (_ || endsWord rest) = true then _ else _) = _
      rw [hrest, Bool.or_true, if_pos rfl]
      rfl
    rw [hend]
    change (t.moved .between (index + name.toList.length) line (m + name.toList.length)).between ':' rest = _
    rw [between_content (by constructor <;> decide), hkeys, Option.bind_some, hclose, hcolon]
    exact congrArg some (valueOf_named hs hcolumns name rfl rfl)
  rw [run_plain hs hcolumns hname.plain (by simp), run_of_read hread, advance_inLine rfl]

theorem endsWord_separator (o : Outline) (rest : List Char) : endsWord (separator m o ++ rest) = true := by
  cases o with
  | list items => cases items <;> rfl
  | object fields => cases fields <;> rfl
  | word | string | literal => rfl

/-- A field whose name stands at the column of the mapping around it. -/
theorem reads_field {field : String × Outline} (hname : IsName field.1) (hvalue : ReadsValue field.2) (hs : s.Outside)
    (hkey : s.keyAllowed = true) (hcolumns : s.columns.head? = some m) :
    s.Reads m (writeField m field) (oneFieldTokens field) := by
  obtain ⟨name, o⟩ := field
  intro index line
  have hnamed : (s.named name).Outside := ⟨rfl, hs.block⟩
  obtain ⟨s', index', line', hafter, hrun⟩ := hvalue hnamed rfl hcolumns
    (show m < m + name.toList.length + 1 by omega) (index + name.toList.length + 1) line
  refine ⟨s', index', line', ⟨hafter.outside, hafter.keyAllowed, hafter.columns, ?_⟩, fun rest hrest => ?_⟩
  · rw [hafter.tokens, oneFieldTokens, List.reverse_cons, List.reverse_cons, List.reverse_cons]
    simp [named]
  · rw [writeField, List.append_assoc, List.cons_append, List.append_assoc,
      run_name hs hkey (by simp [hcolumns]) hname (endsWord_separator o _), if_pos hcolumns, ← List.append_assoc]
    exact hrun rest hrest

theorem resumes_fields {fields : List (String × Outline)} (hnames : ∀ f ∈ fields, IsName f.1)
    (hrest : Resumes (m + 1) rest) : Resumes (m + 1) (writeFields m fields ++ rest) := by
  cases fields with
  | nil => exact hrest
  | cons field fields =>
    obtain ⟨name, o⟩ := field
    have hplain : Style.showsPlain name.toList = true := (hnames _ List.mem_cons_self).plain
    rw [writeFields, writeField, List.append_assoc]
    cases hchars : name.toList with
    | nil =>
      rw [hchars] at hplain
      cases hplain
    | cons c cs =>
      rw [hchars] at hplain
      exact .line _ (Nat.lt_succ_self m) (content_of_showsPlain hplain)

/-- The fields of an object, at the column of the mapping. -/
theorem reads_fields {fields : List (String × Outline)} (hnames : ∀ f ∈ fields, IsName f.1)
    (hvalues : ∀ f ∈ fields, ReadsValue f.2) (hs : s.Outside) (hkey : s.keyAllowed = true)
    (hcolumns : s.columns.head? = some m) : s.Reads 0 (writeFields m fields) (fieldTokens fields) := by
  induction fields generalizing s with
  | nil => exact reads_nil hs hkey
  | cons field fields ih =>
    rw [List.forall_mem_cons] at hnames hvalues
    rw [writeFields, fieldTokens]
    refine Reads.spaces (Reads.append (reads_field hnames.1 hvalues.1 hs hkey hcolumns) (fun s' hafter => ?_) ?_)
    · exact ih hnames.2 hvalues.2 hafter.outside hafter.keyAllowed (by rw [hafter.columns, hcolumns])
    · rw [floor_eq hcolumns]
      exact fun rest => resumes_fields hnames.2

/-- What belongs to a collection around a mapping does not belong to the mapping. -/
theorem floor_le (hcolumns : ∀ n ∈ s.columns.head?, n < m) : s.floor ≤ m := by
  unfold floor
  cases hcons : s.columns with
  | nil => exact Nat.zero_le m
  | cons n columns => exact hcolumns n (by rw [hcons]; rfl)

/-- An object at a column to the right of what is open. -/
theorem reads_object {fields : List (String × Outline)} (hne : fields ≠ []) (hnames : ∀ f ∈ fields, IsName f.1)
    (hvalues : ∀ f ∈ fields, ReadsValue f.2) (hs : s.Outside) (hkey : s.keyAllowed = true)
    (hcolumns : ∀ n ∈ s.columns.head?, n < m) : s.Reads m (writeAt m (.object fields)) (tokensOf (.object fields)) := by
  obtain ⟨field, fields, rfl⟩ := List.exists_cons_of_ne_nil hne
  rw [List.forall_mem_cons] at hnames hvalues
  have hopened : (s.openMapping m).Outside := ⟨hs.key, hs.block⟩
  have hfields : (s.openMapping m).Reads m (writeField m field ++ writeFields m fields)
      (oneFieldTokens field ++ fieldTokens fields) := by
    refine Reads.append (reads_field hnames.1 hvalues.1 hopened hkey rfl) (fun s' hafter => ?_) fun rest => ?_
    · exact reads_fields hnames.2 hvalues.2 hafter.outside hafter.keyAllowed (by rw [hafter.columns]; rfl)
    · exact resumes_fields hnames.2
  -- the first name opens the mapping
  have hopens (index line : ℕ) (rest : List Char) :
      (s.moved .between index line m).run (writeField m field ++ rest) =
        ((s.openMapping m).moved .between index line m).run (writeField m field ++ rest) := by
    obtain ⟨name, o⟩ := field
    have hword : endsWord ((separator m o ++ writeAt (valueColumn m o) o) ++ rest) = true := by
      rw [List.append_assoc]
      exact endsWord_separator o _
    have hne : s.columns.head? ≠ some m := fun hhead => Nat.lt_irrefl m (hcolumns m hhead)
    have hhead : (s.openMapping m).columns.head? = some m := rfl
    rw [writeField, List.append_assoc, List.cons_append,
      run_name hs hkey (fun n hn => Nat.le_of_lt (hcolumns n hn)) hnames.1 hword, if_neg hne,
      run_name hopened hkey (by simp [openMapping]) hnames.1 hword, if_pos hhead]
  intro index line
  obtain ⟨s', index', line', hafter, hrun⟩ := hfields index line
  have hhead : s'.columns.head? = some m := by
    rw [hafter.columns]
    rfl
  refine ⟨s'.endBlock, index', line', ⟨⟨hafter.outside.key, hafter.outside.block⟩, hafter.keyAllowed, ?_, ?_⟩,
    fun rest hrest => ?_⟩
  · rw [endBlock, hafter.columns]
    rfl
  · rw [endBlock, push, hafter.tokens, tokensOf, fieldTokens]
    simp [openMapping, push]
  · have houter : Resumes m rest := hrest.mono (floor_le hcolumns)
    rw [writeAt, List.append_assoc, hopens, ← List.append_assoc, hrun rest (houter.mono (Nat.le_succ m)),
      run_endBlock hafter.outside hhead houter]

/-! ## Outlines -/

theorem readsBoth {o : Outline} (hseparator : ∀ n, separator n o = [' ']) (hcolumn : ∀ n, valueColumn n o = n + 2)
    (h : ∀ ⦃s : Scanner⦄ ⦃n column : ℕ⦄, s.Outside → s.columns.head? = some n → n < column →
      s.Reads column (writeAt (n + 2) o) (tokensOf o)) : ReadsValue o ∧ ReadsItem o := by
  refine ⟨fun s n column hs _ hcolumns hlt => ?_, fun s n hs _ hcolumns => h hs hcolumns (by omega)⟩
  rw [hseparator, hcolumn]
  exact Reads.space (h hs hcolumns (by omega))

/-- An outline is read as its tokens at the value of a field, and if it is no list also at an item. -/
theorem readsBoth_of_writable {o : Outline} (ho : Writable o) : ReadsValue o ∧ (isList o = false → ReadsItem o) := by
  induction ho with
  | word n =>
    have hword := readsBoth (o := .word n) (fun _ => rfl) (fun _ => rfl) fun s m column hs hcolumns hlt =>
      reads_plain hs (by simpa [hcolumns] using hlt) (showsPlain_decimal n.toNat)
    exact hword.imp_right fun h _ => h
  | string text =>
    have hstring := readsBoth (o := .string text) (fun _ => rfl) (fun _ => rfl) fun s m column hs hcolumns hlt =>
      reads_string hs hcolumns hlt text
    exact hstring.imp_right fun h _ => h
  | literal l =>
    have hliteral := readsBoth (o := .literal l) (fun _ => rfl) (fun _ => rfl) fun s m column hs hcolumns hlt =>
      reads_writeLiteral hs hcolumns hlt l
    exact hliteral.imp_right fun h _ => h
  | @list items hitems hlists ih =>
    refine ⟨fun s n column hs hkey hcolumns hlt => ?_, nofun⟩
    cases items with
    | nil =>
      exact Reads.space (reads_noItems hs hkey (by simp [hcolumns]; omega))
    | cons o os =>
      have hreads : ∀ o' ∈ o :: os, ReadsItem o' := fun o' ho' => (ih o' ho').2 (hlists o' ho')
      exact Reads.lineFeed hs (reads_items hreads ⟨hs.key, hs.block⟩ rfl hcolumns)
  | @object fields hne hnames hvalues ih =>
    have hobject {s : Scanner} {n : ℕ} (hs : s.Outside) (hkey : s.keyAllowed = true)
        (hcolumns : s.columns.head? = some n) :
        s.Reads (n + 2) (writeAt (n + 2) (.object fields)) (tokensOf (.object fields)) :=
      reads_object hne hnames (fun f hf => (ih f hf).1) hs hkey (by simp [hcolumns])
    refine ⟨fun s n column hs hkey hcolumns hlt => ?_, fun _ s n hs hkey hcolumns => hobject hs hkey hcolumns⟩
    obtain ⟨field, fields, rfl⟩ := List.exists_cons_of_ne_nil hne
    exact Reads.lineFeed hs (Reads.spaces (hobject ⟨hs.key, hs.block⟩ rfl hcolumns))

/-- The text of an object is read as its tokens. -/
theorem run_write {fields : List (String × Outline)} (ho : Writable (.object fields)) :
    start.run (writeAt 0 (.object fields)) = some (tokensOf (.object fields)) := by
  cases ho with
  | object hne hnames hvalues =>
    have hstart : start.Outside := ⟨rfl, rfl⟩
    have hread : start.Reads 0 (writeAt 0 (.object fields)) (tokensOf (.object fields)) :=
      reads_object hne hnames (fun f hf => (readsBoth_of_writable (hvalues f hf)).1) hstart rfl (by simp [start])
    obtain ⟨s', index', line', hafter, hrun⟩ := hread 0 0
    have hrun' := hrun [] .done
    rw [List.append_nil] at hrun'
    refine hrun'.trans ?_
    have hcolumns : s'.columns = [] := hafter.columns
    rw [run_nil, finish_outside hafter.outside, closeBlocks_eq_self (by simp [moved, hcolumns])]
    change some s'.tokens.reverse = _
    rw [hafter.tokens]
    simp [start]

end Scanner

end TypeBundle.Yaml
