import TypeBundle.Text.Digits
import TypeBundle.Toml.Word
/-!
# Reading TOML

A text is read character by character. `Reader` keeps the tables so far with the path of the header
that the keys belong to, the arrays and inline tables that are still open, what may come next, and the
part of a token that has been read. Arrays, inline tables and keys nest less than eighty deep.
-/

namespace TypeBundle.Toml

/-! ## The tables of a text -/

/-- The tables that a text has described so far. -/
structure Tables where
  root : Fields
  /-- The path of the table that the next keys belong to. -/
  current : List String

namespace Tables

/-- Gives a key its value; its path is given with the last name first. -/
def assign? (t : Tables) (path : List String) (v : Value) : Option Tables :=
  match path with
  | [] => none
  | name :: outer =>
    (Fields.descend? (Fields.assign? name v outer.reverse) t.current t.root).map fun root =>
      { t with root }

/-- Goes on with another table; its path is given with the last name first. -/
def header? (t : Tables) (element : Bool) (path : List String) : Option Tables :=
  match path with
  | [] => none
  | name :: outer =>
    let begin? := if element then Fields.openElement? name else Fields.openTable? name
    (Fields.descend? begin? outer.reverse t.root).map fun root => ⟨root, path.reverse⟩

end Tables

/-! ## Reading -/

/-- What a key is for. -/
inductive KeyUse where
  | header (element : Bool)
  | assignment
  /-- An entry of an inline table. -/
  | entry
deriving DecidableEq, Repr

/-- What awaits a value, or is open between values. Lists are kept with the last first. -/
inductive Frame where
  | assignment (path : List String)
  | array (items : List Value)
  | inline (fields : Fields)
  | entry (fields : Fields) (path : List String)

/-- What may come next. -/
inductive Goal where
  /-- A header, a key or the end of an empty line. -/
  | statement
  /-- A name of a key. -/
  | name (use : KeyUse) (path : List String)
  /-- A point, or what follows a key. -/
  | keyEnd (use : KeyUse) (path : List String)
  | value
  /-- A value, or the end of an array. -/
  | item
  /-- A comma, or the end of an array. -/
  | itemEnd
  /-- An entry, or the end of an empty inline table. -/
  | entry
  /-- A comma, or the end of an inline table. -/
  | entryEnd
  | lineEnd

/-- The token that has been read in part. Texts are kept with the last character first. -/
inductive Scan where
  | between
  | comment
  /-- The rest of a token, of which `more` characters are missing. -/
  | rest (more : Nat)
  | bareName (text : List Char)
  | word (text : List Char)
  /-- A string between quotes of this kind, on one line or several. -/
  | string (quote : Char) (multiline : Bool) (text : List Char)
  /-- A multiline string before its first character; `more` characters of its quotes are missing. -/
  | opening (quote : Char) (more : Nat)
  /-- Quotes within a multiline string, of which `more` are missing. -/
  | quotes (quote : Char) (text : List Char) (more : Nat)
  | escape (multiline : Bool) (text : List Char)
  | hex (multiline : Bool) (text : List Char) (digits : Nat) (point : Nat)
  /-- White space around an escaped line break. -/
  | joint (text : List Char) (broken : Bool)

/-- A text that has been read in part. -/
structure Reader where
  tables : Tables
  frames : List Frame
  goal : Goal
  scan : Scan

namespace Reader

/-- The state before the first character. -/
def start : Reader := ⟨⟨[], []⟩, [], .statement, .between⟩

def nestingLimit : Nat := 80

def isBlank (c : Char) : Bool := c == ' ' || c == '\t'

/-- Whether comments and strings may hold the character. -/
def isShown (c : Char) : Bool := c == '\t' || (0x20 ≤ c.toNat && c.toNat != 0x7F)

/-- Puts a complete value where it belongs. -/
def accept (r : Reader) (v : Value) : Option Reader :=
  match r.frames with
  | .assignment path :: frames =>
    (r.tables.assign? path v).map fun tables => ⟨tables, frames, .lineEnd, .between⟩
  | .array items :: frames => some ⟨r.tables, .array (v :: items) :: frames, .itemEnd, .between⟩
  | .entry fields path :: frames =>
    match path with
    | [] => none
    | name :: outer =>
      (Fields.assign? name v outer.reverse fields).map fun fields =>
        ⟨r.tables, .inline fields :: frames, .entryEnd, .between⟩
  | _ => none

/-- Puts the name of a key where it belongs. -/
def acceptName (r : Reader) (name : List Char) : Option Reader :=
  match r.goal with
  | .name use path =>
    let path := String.ofList name :: path
    if path.length < nestingLimit then some { r with goal := .keyEnd use path, scan := .between }
    else none
  | _ => none

/-- Ends a string, which is a name or a value. -/
def acceptString (r : Reader) (text : List Char) : Option Reader :=
  match r.goal with
  | .name _ _ => r.acceptName text.reverse
  | _ => r.accept (.string (String.ofList text.reverse))

/-- Begins a name. -/
def beginName (r : Reader) (use : KeyUse) (path : List String) (c : Char) : Option Reader :=
  let r := { r with goal := .name use path }
  if isBlank c then some r
  else if c = '\x22' ∨ c = '\'' then some { r with scan := .string c false [] }
  else if Word.isKeyChar c then some { r with scan := .bareName [c] }
  else none

/-- Opens an array or an inline table, unless it nests too deep. -/
def openFrame (r : Reader) (frame : Frame) (goal : Goal) : Option Reader :=
  if r.frames.length < nestingLimit then
    some { r with frames := frame :: r.frames, goal, scan := .between }
  else none

/-- Begins a value. -/
def beginValue (r : Reader) (c : Char) (rest : List Char) : Option Reader :=
  if c = '\x22' ∨ c = '\'' then
    if rest.take 2 = [c, c] then some { r with scan := .opening c 2 }
    else some { r with scan := .string c false [] }
  else if c = '[' then r.openFrame (.array []) .item
  else if c = '\x7b' then r.openFrame (.inline []) .entry
  else if Word.isValueChar c then some { r with scan := .word [c] }
  else none

/-- Ends an array. -/
def closeArray (r : Reader) : Option Reader :=
  match r.frames with
  | .array items :: frames => { r with frames }.accept (.array items.reverse)
  | _ => none

/-- Ends an inline table. -/
def closeInline (r : Reader) : Option Reader :=
  match r.frames with
  | .inline fields :: frames => { r with frames }.accept (.table .inline fields)
  | _ => none

/-- What follows a key. -/
def endKey (r : Reader) (use : KeyUse) (path : List String) (c : Char) (rest : List Char) :
    Option Reader :=
  match use with
  | .header element =>
    if c = ']' ∧ (element → rest.head? = some ']') then
      (r.tables.header? element path).map fun tables =>
        { r with tables, goal := .lineEnd, scan := if element then .rest 1 else .between }
    else none
  | .assignment =>
    if c = '=' then some { r with frames := .assignment path :: r.frames, goal := .value } else none
  | .entry =>
    match r.frames with
    | .inline fields :: frames =>
      if c = '=' then some { r with frames := .entry fields path :: frames, goal := .value } else none
    | _ => none

/-- Begins a comment or goes to the next line, in a place where lines may end. -/
def endLine (r : Reader) (c : Char) : Option Reader :=
  if c = '#' then some { r with scan := .comment }
  else if c = '\n' then
    match r.goal with
    | .lineEnd => some { r with goal := .statement }
    | _ => some r
  else none

/-- Goes on between tokens. -/
def step (r : Reader) (c : Char) (rest : List Char) : Option Reader :=
  let r := { r with scan := .between }
  if isBlank c then some r
  else match r.goal with
    | .statement =>
      if c = '[' then
        if rest.head? = some '[' then some { r with goal := .name (.header true) [], scan := .rest 1 }
        else some { r with goal := .name (.header false) [] }
      else if c = '#' ∨ c = '\n' then r.endLine c
      else r.beginName .assignment [] c
    | .name use path => r.beginName use path c
    | .keyEnd use path =>
      if c = '.' then some { r with goal := .name use path } else r.endKey use path c rest
    | .value => r.beginValue c rest
    | .item =>
      if c = ']' then r.closeArray
      else if c = '#' ∨ c = '\n' then r.endLine c
      else r.beginValue c rest
    | .itemEnd =>
      if c = ']' then r.closeArray
      else if c = ',' then some { r with goal := .item }
      else r.endLine c
    | .entry => if c = '\x7d' then r.closeInline else r.beginName .entry [] c
    | .entryEnd =>
      if c = '\x7d' then r.closeInline
      else if c = ',' then some { r with goal := .name .entry [] }
      else none
    | .lineEnd => r.endLine c

/-- Goes on within a string. -/
def string (r : Reader) (quote : Char) (multiline : Bool) (text : List Char) (c : Char)
    (rest : List Char) : Option Reader :=
  if c = quote then
    if multiline then
      -- up to two quotes belong to the text, also right before the three that end it
      let count := 1 + (rest.takeWhile (· = quote)).length
      if count < 3 then
        some { r with scan := .quotes quote (List.replicate count quote ++ text) (count - 1) }
      else if count < 6 then
        (r.acceptString (List.replicate (count - 3) quote ++ text)).map fun r =>
          { r with scan := .rest (count - 1) }
      else none
    else r.acceptString text
  else if c = '\\' ∧ quote = '\x22' then some { r with scan := .escape multiline text }
  else if isShown c ∨ (multiline ∧ c = '\n') then
    some { r with scan := .string quote multiline (c :: text) }
  else none

/-- The character of a one-letter escape. -/
def escapedChar? : Char → Option Char
  | 'b' => some '\x08'
  | 't' => some '\t'
  | 'n' => some '\n'
  | 'f' => some '\x0c'
  | 'r' => some '\r'
  | '\x22' => some '\x22'
  | '\\' => some '\\'
  | _ => none

/-- How many digits follow the letter of an escape by code point. -/
def hexDigits? : Char → Option Nat
  | 'u' => some 4
  | 'U' => some 8
  | _ => none

def escape (r : Reader) (multiline : Bool) (text : List Char) (c : Char) : Option Reader :=
  if multiline ∧ (isBlank c ∨ c = '\n') then some { r with scan := .joint text (c == '\n') }
  else match hexDigits? c with
    | some digits => some { r with scan := .hex multiline text digits 0 }
    | none => (escapedChar? c).map fun d => { r with scan := .string '\x22' multiline (d :: text) }

def hex (r : Reader) (multiline : Bool) (text : List Char) (digits point : Nat) (c : Char) :
    Option Reader := do
  let point := point * 16 + (← Text.digitValue? c)
  if 1 < digits then return { r with scan := .hex multiline text (digits - 1) point }
  else
    guard point.isValidChar
    return { r with scan := .string '\x22' multiline (Char.ofNat point :: text) }

/-- Whether a blank joins a date and a time. -/
def joinsTime (text : List Char) (c : Char) (rest : List Char) : Bool :=
  c == ' ' && Word.isDate text.reverse && rest.head?.any Word.isDigit

/-- Ends a word. -/
def endWord (r : Reader) (text : List Char) : Option Reader :=
  (Word.value? text.reverse).bind r.accept

/-- Reads one more character, before `rest`. -/
def feed (r : Reader) (c : Char) (rest : List Char) : Option Reader :=
  match r.scan with
  | .between => r.step c rest
  | .comment => if c = '\n' then r.step c rest else if isShown c then some r else none
  | .rest more => some { r with scan := if 1 < more then .rest (more - 1) else .between }
  | .bareName text =>
    if Word.isKeyChar c then some { r with scan := .bareName (c :: text) }
    else (r.acceptName text.reverse).bind (·.step c rest)
  | .word text =>
    if Word.isValueChar c || joinsTime text c rest then some { r with scan := .word (c :: text) }
    else (r.endWord text).bind (·.step c rest)
  | .string quote multiline text => r.string quote multiline text c rest
  | .opening quote more =>
    if 0 < more then some { r with scan := .opening quote (more - 1) }
    else if c = '\n' then some { r with scan := .string quote true [] }
    else r.string quote true [] c rest
  | .quotes quote text more =>
    if 0 < more then some { r with scan := .quotes quote text (more - 1) }
    else r.string quote true text c rest
  | .escape multiline text => r.escape multiline text c
  | .hex multiline text digits point => r.hex multiline text digits point c
  | .joint text broken =>
    if isBlank c ∨ c = '\n' then some { r with scan := .joint text (broken || c == '\n') }
    else if broken then r.string '\x22' true text c rest
    else none

/-- Reads a text. -/
def feedAll (r : Reader) : List Char → Option Reader
  | [] => some r
  | c :: cs => (r.feed c cs).bind (·.feedAll cs)

/-- The tables, if the text may end here. -/
def finish (r : Reader) : Option Fields := do
  let r ← match r.scan with
    | .word text => r.endWord text
    | .between | .comment | .rest _ => some r
    | _ => none
  match r.goal with
  | .statement | .lineEnd => return r.tables.root
  | _ => none

end Reader

/-- The text with every carriage return before a line feed left away. -/
def unifyBreaks : List Char → List Char
  | [] => []
  | c :: cs => if c = '\r' ∧ cs.head? = some '\n' then unifyBreaks cs else c :: unifyBreaks cs

/-- Reads a text. A byte order mark may stand first. -/
def read? (text : String) : Option Fields :=
  let cs := match text.toList with
    | '\uFEFF' :: cs => cs
    | cs => cs
  (Reader.start.feedAll (unifyBreaks cs)).bind Reader.finish

end TypeBundle.Toml
