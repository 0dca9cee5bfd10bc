import TypeBundle.Text.Digits
import TypeBundle.Yaml.Scalar
/-!
# Tokens of YAML

The tokens of a document, with the beginnings and ends of block collections made explicit.
`Token.ofText?` reads a text character by character. Two things are remembered between tokens: the
columns of the block collections that are open, and where a mapping key may have begun. A key shows
itself as such only by the colon after it, which must stand on the same line and within 1024
characters; the token for the key, and for the mapping if it is the first key, are then put before it.

Anchors, aliases, tags and directives are refused.
-/

namespace TypeBundle.Yaml

inductive Token where
  | scalar (plain : Bool) (text : String)
  | blockSequence
  | blockMapping
  | blockEnd
  /-- The dash before an item of a block sequence. -/
  | entry
  | key
  | value
  | flowSequence
  | flowSequenceEnd
  | flowMapping
  | flowMappingEnd
  | comma
  | documentStart
  | documentEnd
deriving DecidableEq, Repr

/-- A place where a mapping key may have begun. -/
structure KeyMark where
  /-- How many tokens stand before it. -/
  tokens : Nat
  index : Nat
  line : Nat
  column : Nat
  /-- Whether nothing but a key may stand here. -/
  required : Bool
deriving DecidableEq, Repr

namespace KeyMark

/-- Whether a colon at this line and index comes too late for the key. -/
def isStale (k : KeyMark) (line index : Nat) : Bool := k.line < line || k.index + 1024 < index

/-- Forgets a key; one that is required is missed. -/
def drop? : Option KeyMark → Option (Option KeyMark)
  | none => some none
  | some k => if k.required then none else some none

/-- Forgets a key that is stale. -/
def expire? (line index : Nat) (k? : Option KeyMark) : Option (Option KeyMark) :=
  match k? with
  | none => some none
  | some k => if k.isStale line index then drop? (some k) else some (some k)

end KeyMark

/-- The token that has been read in part. Texts are kept with the last character first. -/
inductive Scan where
  | between
  | comment
  /-- The rest of an indicator, of which `more` characters are missing. -/
  | indicator (more : Nat)
  | plain (text : List Char) (gap : Gap)
  | quoted (single : Bool) (text : List Char) (gap : Gap)
  | escape (single : Bool) (text : List Char)
  /-- An escape by code point, of which `digits` digits are missing. -/
  | hex (text : List Char) (digits : Nat) (point : Nat)
  | header (folded : Bool) (chars : List Char)
  | block (b : Block)
deriving DecidableEq, Repr

/-- A text that has been read in part. -/
structure Scanner where
  scan : Scan
  index : Nat
  line : Nat
  column : Nat
  /-- The tokens so far, the last first. -/
  tokens : List Token
  size : Nat
  /-- The columns of the open block collections, the innermost first. -/
  columns : List Nat
  /-- Whether a key may begin here. -/
  keyAllowed : Bool
  /-- Where a key may have begun in the innermost flow collection, or outside of them. -/
  key? : Option KeyMark
  /-- The same for the collections around it; there is one for each open flow collection. -/
  outerKeys : List (Option KeyMark)
deriving DecidableEq, Repr

namespace Scanner

/-- The state before the first character. -/
def start : Scanner := ⟨.between, 0, 0, 0, [], 0, [], true, none, []⟩

def inFlow (s : Scanner) : Bool := !s.outerKeys.isEmpty

/-- The column from which content belongs to the innermost block collection. -/
def floor (s : Scanner) : Nat :=
  match s.columns with
  | [] => 0
  | n :: _ => n + 1

def push (s : Scanner) (t : Token) : Scanner := { s with tokens := t :: s.tokens, size := s.size + 1 }

/-- Puts a token before all but the first `count` tokens. -/
def insert (s : Scanner) (count : Nat) (t : Token) : Scanner :=
  let since := s.size - count
  { s with tokens := s.tokens.take since ++ t :: s.tokens.drop since, size := s.size + 1 }

/-! ## Block collections -/

/-- Whether a block collection may begin at the column. -/
def isDeeper (s : Scanner) (column : Nat) : Bool :=
  !s.inFlow &&
    match s.columns with
    | [] => true
    | n :: _ => n < column

/-- Begins a block collection here, unless one is open at this column. -/
def openBlock (s : Scanner) (t : Token) : Scanner :=
  if s.isDeeper s.column then { s.push t with columns := s.column :: s.columns } else s

/-- Ends the block collections that do not satisfy `stays`, from the innermost on. -/
def closeBlocks (stays : Nat → Bool) (s : Scanner) : Scanner :=
  let closed := s.columns.takeWhile fun n => !stays n
  { s with
    tokens := closed.map (fun _ => .blockEnd) ++ s.tokens
    size := s.size + closed.length
    columns := s.columns.dropWhile fun n => !stays n }

/-- Ends the block collections that begin to the right of the current column. -/
def closeDeeper (s : Scanner) : Scanner :=
  if s.inFlow then s else s.closeBlocks fun n => n ≤ s.column

/-- Ends all block collections. -/
def closeAll (s : Scanner) : Scanner := if s.inFlow then s else s.closeBlocks fun _ => false

/-! ## Keys -/

/-- Forgets the key of the innermost collection. -/
def dropKey (s : Scanner) : Option Scanner := do
  return { s with key? := ← KeyMark.drop? s.key? }

/-- Forgets the keys that are stale. -/
def expireKeys (s : Scanner) : Option Scanner := do
  let key? ← KeyMark.expire? s.line s.index s.key?
  let outerKeys ← s.outerKeys.mapM (KeyMark.expire? s.line s.index)
  return { s with key?, outerKeys }

/-- Remembers that a key may begin here, if it is allowed to. -/
def markKey (s : Scanner) : Option Scanner :=
  if s.keyAllowed then do
    let s ← s.dropKey
    return { s with
      key? := some {
        tokens := s.size
        index := s.index
        line := s.line
        column := s.column
        required := !s.inFlow && s.columns.head? == some s.column } }
  else some s

/-- The colon after a key that is remembered. -/
def valueOf (s : Scanner) (k : KeyMark) : Scanner :=
  let s := { s.insert k.tokens .key with key? := none, keyAllowed := false }
  let s :=
    if s.isDeeper k.column then { s.insert k.tokens .blockMapping with columns := k.column :: s.columns }
    else s
  s.push .value

/-- A colon without a key before it. -/
def bareValue (s : Scanner) : Option Scanner :=
  if s.inFlow then some { s.push .value with keyAllowed := false }
  else if s.keyAllowed then some ((s.openBlock .blockMapping).push .value)
  else none

/-! ## Indicators -/

/-- A dash before an item. -/
def entry (s : Scanner) : Option Scanner :=
  if s.inFlow || s.keyAllowed then do
    let s ← (s.openBlock .blockSequence).dropKey
    return { s.push .entry with keyAllowed := true }
  else none

/-- A question mark before a key. -/
def explicitKey (s : Scanner) : Option Scanner :=
  if s.inFlow || s.keyAllowed then do
    let s ← (s.openBlock .blockMapping).dropKey
    return { s.push .key with keyAllowed := !s.inFlow }
  else none

def openFlow (s : Scanner) (t : Token) : Option Scanner := do
  let s ← s.markKey
  return { s.push t with key? := none, outerKeys := s.key? :: s.outerKeys, keyAllowed := true }

def closeFlow (s : Scanner) (t : Token) : Option Scanner := do
  let s ← s.dropKey
  let s := { s.push t with keyAllowed := false }
  match s.outerKeys with
  | [] => return s
  | k? :: outerKeys => return { s with key? := k?, outerKeys }

def comma (s : Scanner) : Option Scanner := do
  let s ← s.dropKey
  return { s.push .comma with keyAllowed := true }

/-- The line `---` or `...`. -/
def marker (s : Scanner) (t : Token) : Option Scanner := do
  let s ← s.closeAll.dropKey
  return { s.push t with keyAllowed := false, scan := .indicator 2 }

/-- Begins a plain or quoted scalar. -/
def beginScalar (s : Scanner) (scan : Scan) : Option Scanner := do
  let s ← s.markKey
  return { s with keyAllowed := false, scan }

/-- Begins a block scalar. -/
def beginBlockScalar (s : Scanner) (folded : Bool) : Option Scanner := do
  let s ← s.dropKey
  return { s with keyAllowed := true, scan := .header folded [] }

/-- The token that begins with `c`. -/
def token (s : Scanner) (c : Char) (rest : List Char) : Option Scanner :=
  let alone := endsWord rest
  let marked := s.column == 0 && isMarker (c :: rest)
  match c with
  | '-' =>
    if marked then s.marker .documentStart
    else if alone then s.entry
    else s.beginScalar (.plain [c] .empty)
  | '.' => if marked then s.marker .documentEnd else s.beginScalar (.plain [c] .empty)
  | '[' => s.openFlow .flowSequence
  | '\x7b' => s.openFlow .flowMapping
  | ']' => s.closeFlow .flowSequenceEnd
  | '\x7d' => s.closeFlow .flowMappingEnd
  | ',' => s.comma
  | '?' => if s.inFlow || alone then s.explicitKey else s.beginScalar (.plain [c] .empty)
  | ':' =>
    if s.inFlow || alone then
      match s.key? with
      | some k => some (s.valueOf k)
      | none => s.bareValue
    else s.beginScalar (.plain [c] .empty)
  | '|' => if s.inFlow then none else s.beginBlockScalar false
  | '>' => if s.inFlow then none else s.beginBlockScalar true
  | '\'' => s.beginScalar (.quoted true [] .empty)
  | '\x22' => s.beginScalar (.quoted false [] .empty)
  | '*' | '&' | '!' | '%' | '@' | '`' | '\t' => none
  | _ => s.beginScalar (.plain [c] .empty)

/-- Goes on between tokens. Tabs are white space only where no key may begin. -/
def between (s : Scanner) (c : Char) (rest : List Char) : Option Scanner :=
  if isBreak c then some { s with scan := .between, keyAllowed := s.keyAllowed || !s.inFlow }
  else if c = ' ' ∨ (c = '\t' ∧ (s.inFlow ∨ ¬ s.keyAllowed)) ∨ (c = byteOrderMark ∧ s.column = 0) then
    some { s with scan := .between }
  else if c = '#' then some { s with scan := .comment }
  else { s with scan := .between }.expireKeys.bind fun s => s.closeDeeper.token c rest

/-! ## Scalars -/

/-- Ends a scalar with this text, the last character first. -/
def endScalar (s : Scanner) (plain : Bool) (text : List Char) : Scanner :=
  { s.push (.scalar plain (String.ofList text.reverse)) with scan := .between }

/-- Ends a plain scalar. A key may begin after it if it was followed by a line break. -/
def endPlain (s : Scanner) (text : List Char) (gap : Gap) : Scanner :=
  { s.endScalar true text with keyAllowed := gap.isBroken }

/-- Whether a plain scalar ends before `c`. -/
def endsPlain (s : Scanner) (gap : Gap) (c : Char) (rest : List Char) : Bool :=
  (gap.isBroken && !s.inFlow && s.column < s.floor) ||
  (gap.isBroken && s.column == 0 && isMarker (c :: rest)) ||
  (gap != .empty && c == '#') ||
  (c == ':' && endsWord rest) ||
  (s.inFlow && isFlowIndicator c)

/-- Whether a colon stands before an indicator of flow collections. -/
def isLooseColon (c : Char) (rest : List Char) : Bool :=
  c == ':' && rest.head?.any fun d => d == '?' || isFlowIndicator d

def plain (s : Scanner) (text : List Char) (gap : Gap) (c : Char) (rest : List Char) :
    Option Scanner :=
  if isBlank c then
    if gap.isBroken ∧ s.column < s.floor ∧ c = '\t' then none
    else some { s with scan := .plain text (gap.addBlank c) }
  else if isBreak c then some { s with scan := .plain text (gap.addBreak c) }
  else if s.endsPlain gap c rest then (s.endPlain text gap).between c rest
  else if s.inFlow && isLooseColon c rest then none
  else some { s with scan := .plain (c :: (gap.folded ++ text)) .empty }

def quoted (s : Scanner) (single : Bool) (text : List Char) (gap : Gap) (c : Char)
    (rest : List Char) : Option Scanner :=
  if isBlank c then some { s with scan := .quoted single text (gap.addBlank c) }
  else if isBreak c then some { s with scan := .quoted single text (gap.addBreak c) }
  else if s.column = 0 ∧ isMarker (c :: rest) then none
  else
    let text := gap.folded ++ text
    if single then
      if c = '\'' then
        if rest.head? = some '\'' then some { s with scan := .escape true text }
        else some (s.endScalar false text)
      else some { s with scan := .quoted true (c :: text) .empty }
    else if c = '\x22' then some (s.endScalar false text)
    else if c = '\\' then some { s with scan := .escape false text }
    else some { s with scan := .quoted false (c :: text) .empty }

/-- The character of a one-letter escape. -/
def escapedChar? : Char → Option Char
  | '0' => some '\x00'
  | 'a' => some '\x07'
  | 'b' => some '\x08'
  | 't' | '\t' => some '\t'
  | 'n' => some '\n'
  | 'v' => some '\x0b'
  | 'f' => some '\x0c'
  | 'r' => some '\r'
  | 'e' => some '\x1b'
  | ' ' => some ' '
  | '\x22' => some '\x22'
  | '/' => some '/'
  | '\\' => some '\\'
  | 'N' => some '\u0085'
  | '_' => some '\u00A0'
  | 'L' => some '\u2028'
  | 'P' => some '\u2029'
  | _ => none

/-- How many digits follow the letter of an escape by code point. -/
def hexDigits? : Char → Option Nat
  | 'x' => some 2
  | 'u' => some 4
  | 'U' => some 8
  | _ => none

def escape (s : Scanner) (single : Bool) (text : List Char) (c : Char) : Option Scanner :=
  if single then some { s with scan := .quoted true (c :: text) .empty }
  else if isBreak c then some { s with scan := .quoted false text (.breaks [] []) }
  else match hexDigits? c with
    | some digits => some { s with scan := .hex text digits 0 }
    | none => (escapedChar? c).map fun d => { s with scan := .quoted false (d :: text) .empty }

def hex (s : Scanner) (text : List Char) (digits point : Nat) (c : Char) : Option Scanner := do
  let point := point * 16 + (← Text.digitValue? c)
  if 1 < digits then return { s with scan := .hex text (digits - 1) point }
  else
    guard (point.isValidChar)
    return { s with scan := .quoted false (Char.ofNat point :: text) .empty }

/-- Ends the header of a block scalar, whose characters are given with the last first. -/
def endHeader (s : Scanner) (folded : Bool) (chars : List Char) : Option Scanner := do
  let h ← BlockHeader.ofChars? folded chars.reverse
  return { s with scan := .block (.start h s.floor) }

def block (s : Scanner) (b : Block) (c : Char) (rest : List Char) : Option Scanner :=
  if b.inLine then some { s with scan := .block (b.addToLine c) }
  else if b.indents s.column ∧ c = ' ' then some s
  else if b.indents s.column ∧ c = '\t' then none
  else if isBreak c then some { s with scan := .block (b.addEmptyLine s.column c) }
  else if b.columnAt s.column = s.column then some { s with scan := .block (b.beginLine s.column c) }
  else (s.endScalar false b.chomped).between c rest

/-! ## Texts -/

/-- What a character does, before its place is left. -/
def read (s : Scanner) (c : Char) (rest : List Char) : Option Scanner :=
  match s.scan with
  | .between => s.between c rest
  | .comment => if isBreak c then s.between c rest else some s
  | .indicator more => some { s with scan := if 1 < more then .indicator (more - 1) else .between }
  | .plain text gap => s.plain text gap c rest
  | .quoted single text gap => s.quoted single text gap c rest
  | .escape single text => s.escape single text c
  | .hex text digits point => s.hex text digits point c
  | .header folded chars =>
    if isBreak c then s.endHeader folded chars else some { s with scan := .header folded (c :: chars) }
  | .block b => s.block b c rest

/-- Leaves the place of a character. -/
def advance (s : Scanner) (c : Char) : Scanner :=
  if isBreak c then { s with index := s.index + 1, line := s.line + 1, column := 0 }
  else { s with index := s.index + 1, column := s.column + 1 }

/-- Reads one more character, before `rest`. -/
def feed (s : Scanner) (c : Char) (rest : List Char) : Option Scanner :=
  (s.read c rest).map (·.advance c)

/-- Reads a text. -/
def feedAll (s : Scanner) : List Char → Option Scanner
  | [] => some s
  | c :: cs => (s.feed c cs).bind (·.feedAll cs)

/-- Ends a scalar at the end of the text. -/
def endLast (s : Scanner) : Option Scanner :=
  match s.scan with
  | .between | .comment | .indicator _ => some s
  | .plain text gap => some (s.endPlain text gap)
  | .header folded chars =>
    (s.endHeader folded chars).map fun s => s.endScalar false []
  | .block b => some (s.endScalar false b.chomped)
  | .quoted _ _ _ | .escape _ _ | .hex _ _ _ => none

/-- The tokens, if the text may end here. -/
def finish (s : Scanner) : Option (List Token) := do
  let s ← (← s.endLast).expireKeys
  let s ← s.closeAll.dropKey
  return s.tokens.reverse

end Scanner

/-- The tokens of a text. -/
def Token.ofText? (text : List Char) : Option (List Token) :=
  if text.all isAllowed then (Scanner.start.feedAll (unifyBreaks text)).bind Scanner.finish else none

end TypeBundle.Yaml
