import TypeBundle.Yaml.Character
/-!
# Lines of scalars

A scalar may run over several lines. In plain and quoted scalars a single line break is folded to a
space, and of several the first is dropped; the blanks around a break do not count. Block scalars begin
with a header and keep their lines, or fold those that do not begin with a blank; the header says
what becomes of the breaks at the end.

Texts that are still being read are kept with their last character first.
-/

namespace TypeBundle.Yaml

/-! ## Plain and quoted scalars -/

/-- The white space since the last word of a scalar, the last character first. -/
inductive Gap where
  | blanks (cs : List Char)
  /-- A line break and those after it. An escaped break counts as `first = []`. -/
  | breaks (first : List Char) (more : List Char)
deriving DecidableEq, Repr

namespace Gap

def empty : Gap := blanks []

def addBlank (c : Char) : Gap → Gap
  | blanks cs => blanks (c :: cs)
  | breaks first more => breaks first more

def addBreak (c : Char) : Gap → Gap
  | blanks _ => breaks [c] []
  | breaks first more => breaks first (c :: more)

/-- Whether the scalar goes on after a line break. -/
def isBroken : Gap → Bool
  | blanks _ => false
  | breaks _ _ => true

/-- What the gap is folded to before another word. -/
def folded : Gap → List Char
  | blanks cs => cs
  | breaks first more =>
    if first = ['\n'] then (if more = [] then [' '] else more) else more ++ first

end Gap

/-! ## Block scalars -/

/-- What becomes of the line breaks at the end of a block scalar. -/
inductive Chomping where
  /-- The first of them is kept. -/
  | clip
  | strip
  | keep
deriving DecidableEq, Repr

/-- The header of a block scalar. -/
structure BlockHeader where
  folded : Bool
  chomping : Chomping
  /-- How far the scalar is indented, if the header says so. -/
  indentation? : Option Nat
deriving DecidableEq, Repr

namespace BlockHeader

/-- Reads how to chomp, if it stands here. -/
def readChomping : List Char → Option Chomping × List Char
  | '+' :: cs => (some .keep, cs)
  | '-' :: cs => (some .strip, cs)
  | cs => (none, cs)

/-- Reads the indentation, if it stands here; it must not be zero. -/
def readIndentation? : List Char → Option (Option Nat × List Char)
  | [] => some (none, [])
  | c :: cs =>
    if c = '0' then none
    else if '1' ≤ c ∧ c ≤ '9' then some (some (c.toNat - '0'.toNat), cs)
    else some (none, c :: cs)

/-- Reads a header, all that stands on the line after its indicator. The chomping and the indentation
may come in either order. -/
def ofChars? (folded : Bool) (cs : List Char) : Option BlockHeader := do
  let (first?, cs) := readChomping cs
  let (indentation?, cs) ← readIndentation? cs
  let (second?, cs) := if first?.isNone && indentation?.isSome then readChomping cs else (none, cs)
  match cs.dropWhile isBlank with
  | [] => pure ()
  | '#' :: _ => pure ()
  | _ => none
  return ⟨folded, (first?.or second?).getD .clip, indentation?⟩

end BlockHeader

/-- A block scalar that has been read in part. -/
structure Block where
  folded : Bool
  chomping : Chomping
  /-- The column where lines begin, once it is known. -/
  column? : Option Nat
  /-- The least column where lines may begin. -/
  least : Nat
  /-- The widest indentation of the empty lines before the first line. -/
  widest : Nat
  text : List Char
  /-- The break of the last line. -/
  ending : List Char
  /-- The breaks of empty lines since then. -/
  empty : List Char
  /-- Whether the last line begins with a blank. -/
  blankStart : Bool
  inLine : Bool
deriving DecidableEq, Repr

namespace Block

/-- The state after the header, within a collection in which content begins at column `floor`. -/
def start (h : BlockHeader) (floor : Nat) : Block where
  folded := h.folded
  chomping := h.chomping
  column? := h.indentation?.map (· + (floor - 1))
  least := max 1 floor
  widest := 0
  text := []
  ending := []
  empty := []
  blankStart := false
  inLine := false

/-- Whether a character at this column still belongs to the indentation. -/
def indents (b : Block) (column : Nat) : Bool :=
  match b.column? with
  | some n => column < n
  | none => true

/-- The column where lines begin, if the first one begins here. -/
def columnAt (b : Block) (column : Nat) : Nat :=
  b.column?.getD (max b.least (max b.widest column))

/-- An empty line with an indentation of `column` blanks. -/
def addEmptyLine (b : Block) (column : Nat) (lineBreak : Char) : Block :=
  { b with widest := max b.widest column, empty := lineBreak :: b.empty }

/-- Begins a line that is not empty. A break between two lines that do not begin with blanks may be
folded. -/
def beginLine (b : Block) (column : Nat) (c : Char) : Block :=
  let joined :=
    if b.folded && b.ending == ['\n'] && !b.blankStart && !isBlank c then
      if b.empty = [] then [' '] else b.empty
    else b.empty ++ b.ending
  { b with
    column? := some column
    text := c :: (joined ++ b.text)
    ending := []
    empty := []
    blankStart := isBlank c
    inLine := true }

/-- Goes on within a line. -/
def addToLine (b : Block) (c : Char) : Block :=
  if isBreak c then { b with ending := [c], inLine := false } else { b with text := c :: b.text }

/-- The text of the scalar when it ends here. -/
def chomped (b : Block) : List Char :=
  match b.chomping with
  | .strip => b.text
  | .clip => b.ending ++ b.text
  | .keep => b.empty ++ (b.ending ++ b.text)

end Block

end TypeBundle.Yaml
