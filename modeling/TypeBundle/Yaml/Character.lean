/-!
# Characters of YAML

Which characters a document may hold, which of them break lines and which are blank. All ways to break
a line but two count as a line feed: the separators of lines and of paragraphs stay what they are.
-/

namespace TypeBundle.Yaml

/-- Whether a document may hold the character. -/
def isAllowed (c : Char) : Bool :=
  let n := c.toNat
  n == 0x09 || n == 0x0A || n == 0x0D || (0x20 ≤ n && n ≤ 0x7E) || n == 0x85 ||
  (0xA0 ≤ n && n ≤ 0xFFFD) || 0x10000 ≤ n

/-- The text with every carriage return, with or without a line feed after it, and every next-line
character as one line feed. -/
def unifyBreaks : List Char → List Char
  | [] => []
  | c :: cs =>
    if c = '\r' then
      if cs.head? = some '\n' then unifyBreaks cs else '\n' :: unifyBreaks cs
    else if c = '\u0085' then '\n' :: unifyBreaks cs
    else c :: unifyBreaks cs

/-- Whether the character breaks a line of a text with unified breaks. -/
def isBreak (c : Char) : Bool := c == '\n' || c == '\u2028' || c == '\u2029'

def isBlank (c : Char) : Bool := c == ' ' || c == '\t'

/-- The mark at the start of a text that tells the order of bytes. -/
def byteOrderMark : Char := '\uFEFF'

/-- Whether a word ends where `rest` begins. -/
def endsWord (rest : List Char) : Bool :=
  match rest with
  | [] => true
  | c :: _ => isBlank c || isBreak c

/-- Whether a line that begins with these characters is `---` or `...`, alone or before a blank. -/
def isMarker (line : List Char) : Bool :=
  match line with
  | '-' :: '-' :: '-' :: rest => endsWord rest
  | '.' :: '.' :: '.' :: rest => endsWord rest
  | _ => false

/-- The indicators that have a meaning of their own within flow collections. -/
def isFlowIndicator (c : Char) : Bool :=
  c == ',' || c == '[' || c == ']' || c == '\x7b' || c == '\x7d'

/-- Whether a quoted scalar can show the character without an escape. -/
def isPrintable (c : Char) : Bool :=
  let n := c.toNat
  n == 0x0A || (0x20 ≤ n && n ≤ 0x7E) || (0xA0 ≤ n && n ≤ 0xFFFD && n != 0xFEFF) || 0x10000 ≤ n

end TypeBundle.Yaml
