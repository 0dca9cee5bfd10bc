import TypeBundle.Json.Value
/-!
# JSON as written

A `Tree` is a JSON text by its grammar alone: numbers are numerals, and a string is missing where its
escapes name a surrogate without its partner. What a tree stands for is asked for only where it is
used, so a text may hold numbers out of range, broken surrogates and any nesting in fields that nobody
reads. `Tree.value?` asks for all of it, within a bound on the nesting of arrays and objects.

`Tree.read?` reads a text character by character, with the containers that are still open on a stack.
-/

namespace TypeBundle.Json

/-- A JSON text by its grammar. -/
inductive Tree where
  | null
  | bool (value : Bool)
  | number (numeral : Numeral)
  | string (text? : Option String)
  | array (items : List Tree)
  | object (fields : List (Option String × Tree))

namespace Tree

instance : Inhabited Tree := ⟨.null⟩

/-! ## What a tree stands for -/

mutual
/-- The value of a tree whose arrays and objects nest at most `limit` deep. -/
def value? (limit : Nat) : Tree → Option Value
  | null => some .null
  | bool b => some (.bool b)
  | number t => t.value?.map .number
  | string t => t.map .string
  | array items =>
    match limit with
    | 0 => none
    | limit + 1 => (values? limit items).map .array
  | object fields =>
    match limit with
    | 0 => none
    | limit + 1 => (fieldValues? limit fields).map .object

def values? (limit : Nat) : List Tree → Option (List Value)
  | [] => some []
  | t :: ts => do
    let v ← value? limit t
    let vs ← values? limit ts
    return v :: vs

def fieldValues? (limit : Nat) : List (Option String × Tree) → Option (List (String × Value))
  | [] => some []
  | field :: fields => do
    let v ← fieldValue? limit field
    let vs ← fieldValues? limit fields
    return v :: vs

def fieldValue? (limit : Nat) : Option String × Tree → Option (String × Value)
  | (name?, t) => do
    let name ← name?
    let v ← value? limit t
    return (name, v)
end

mutual
/-- A value as it would be read, with `numeral` for the numbers. -/
def ofValue (numeral : Number → Numeral) : Value → Tree
  | .null => null
  | .bool b => bool b
  | .number n => number (numeral n)
  | .string s => string (some s)
  | .array items => array (ofValues numeral items)
  | .object fields => object (ofFields numeral fields)

def ofValues (numeral : Number → Numeral) : List Value → List Tree
  | [] => []
  | v :: vs => ofValue numeral v :: ofValues numeral vs

def ofFields (numeral : Number → Numeral) : List (String × Value) → List (Option String × Tree)
  | [] => []
  | field :: fields => ofField numeral field :: ofFields numeral fields

def ofField (numeral : Number → Numeral) : String × Value → Option String × Tree
  | (name, v) => (some name, ofValue numeral v)
end

/-! ## Reading -/

/-- A container that is still open, with what it holds so far, the last first. -/
inductive Frame where
  | array (items : List Tree)
  | object (fields : List (Option String × Tree))
  /-- An object whose field of this name awaits its value. -/
  | field (fields : List (Option String × Tree)) (name? : Option String)

/-- What may come next. -/
inductive Goal where
  | value
  /-- A value, or the end of an empty array. -/
  | item
  /-- A name, or the end of an empty object. -/
  | member
  | name
  /-- The colon after a name. -/
  | colon (name? : Option String)
  /-- A comma, or the end of a container. -/
  | separator
  /-- Nothing: the text is complete. -/
  | nothing (t : Tree)

/-- The part of a token that has been read, the last character first. -/
inductive Scan where
  | between
  | word (letters : List Char)
  | numeral (chars : List Char)
  /-- A string, by code points; escapes may have named surrogates. -/
  | string (points : List Nat)
  | escape (points : List Nat)
  /-- An escape by code point, of which `digits` digits are missing. -/
  | hex (points : List Nat) (digits : Nat) (point : Nat)

/-- A text that has been read in part. -/
structure Reading where
  scan : Scan
  frames : List Frame
  goal : Goal

def isBlank (c : Char) : Bool := c == ' ' || c == '\n' || c == '\r' || c == '\t'

def isNumeralChar (c : Char) : Bool :=
  Numeral.isDigit c || c == '-' || c == '+' || c == '.' || c == 'e' || c == 'E'

def isWordChar (c : Char) : Bool := 'a' ≤ c && c ≤ 'z'

def isHigh (n : Nat) : Bool := 0xD800 ≤ n && n < 0xDC00

def isLow (n : Nat) : Bool := 0xDC00 ≤ n && n < 0xE000

/-- The characters of a string in which every high surrogate is followed by a low one, and every low
one preceded by a high one. -/
def joinSurrogates : List Nat → Option (List Char)
  | [] => some []
  | [n] => if isHigh n || isLow n then none else some [Char.ofNat n]
  | n :: m :: rest =>
    if isHigh n then
      if isLow m then
        (joinSurrogates rest).map (Char.ofNat (0x10000 + (n - 0xD800) * 0x400 + (m - 0xDC00)) :: ·)
      else none
    else if isLow n then none
    else (joinSurrogates (m :: rest)).map (Char.ofNat n :: ·)

namespace Reading

/-- Puts a complete value where it belongs. -/
def accept (t : Tree) : List Frame → Option Reading
  | [] => some ⟨.between, [], .nothing t⟩
  | .array items :: frames => some ⟨.between, .array (t :: items) :: frames, .separator⟩
  | .field fields name? :: frames =>
    some ⟨.between, .object ((name?, t) :: fields) :: frames, .separator⟩
  | .object _ :: _ => none

/-- Whether a value may come next. -/
def wantsValue : Goal → Bool
  | .value => true
  | .item => true
  | _ => false

/-- Goes on between tokens. -/
def step (r : Reading) (c : Char) : Option Reading :=
  if isBlank c then some r
  else match c with
    | '\x22' =>
      match r.goal with
      | .value | .item | .member | .name => some { r with scan := .string [] }
      | _ => none
    | '[' => if wantsValue r.goal then some ⟨.between, .array [] :: r.frames, .item⟩ else none
    | '\x7b' => if wantsValue r.goal then some ⟨.between, .object [] :: r.frames, .member⟩ else none
    | ']' =>
      match r.goal, r.frames with
      | .item, .array items :: frames => accept (.array items.reverse) frames
      | .separator, .array items :: frames => accept (.array items.reverse) frames
      | _, _ => none
    | '\x7d' =>
      match r.goal, r.frames with
      | .member, .object fields :: frames => accept (.object fields.reverse) frames
      | .separator, .object fields :: frames => accept (.object fields.reverse) frames
      | _, _ => none
    | ',' =>
      match r.goal, r.frames with
      | .separator, .array _ :: _ => some { r with goal := .value }
      | .separator, .object _ :: _ => some { r with goal := .name }
      | _, _ => none
    | ':' =>
      match r.goal, r.frames with
      | .colon name?, .object fields :: frames => some ⟨.between, .field fields name? :: frames, .value⟩
      | _, _ => none
    | c =>
      if wantsValue r.goal then
        if isWordChar c then some { r with scan := .word [c] }
        else if c == '-' || Numeral.isDigit c then some { r with scan := .numeral [c] }
        else none
      else none

/-- Ends a word or a numeral. -/
def close (r : Reading) : Option Reading :=
  match r.scan with
  | .between => some r
  | .word letters =>
    match letters.reverse with
    | ['n', 'u', 'l', 'l'] => accept .null r.frames
    | ['t', 'r', 'u', 'e'] => accept (.bool true) r.frames
    | ['f', 'a', 'l', 's', 'e'] => accept (.bool false) r.frames
    | _ => none
  | .numeral chars =>
    match Numeral.ofChars? chars.reverse with
    | some t => accept (.number t) r.frames
    | none => none
  | _ => none

/-- Ends a string, which is a name or a value. -/
def closeString (r : Reading) (points : List Nat) : Option Reading :=
  let text? := (joinSurrogates points.reverse).map String.ofList
  match r.goal with
  | .member | .name => some ⟨.between, r.frames, .colon text?⟩
  | _ => accept (.string text?) r.frames

/-- The code point of a one-letter escape. -/
def escapePoint? : Char → Option Nat
  | '\x22' => some 0x22
  | '\\' => some 0x5C
  | '/' => some 0x2F
  | 'b' => some 0x08
  | 'f' => some 0x0C
  | 'n' => some 0x0A
  | 'r' => some 0x0D
  | 't' => some 0x09
  | _ => none

/-- Reads one more character. -/
def feed (r : Reading) (c : Char) : Option Reading :=
  match r.scan with
  | .between => r.step c
  | .word letters =>
    if isWordChar c then some { r with scan := .word (c :: letters) }
    else r.close.bind (step · c)
  | .numeral chars =>
    if isNumeralChar c then some { r with scan := .numeral (c :: chars) }
    else r.close.bind (step · c)
  | .string points =>
    if c = '\x22' then r.closeString points
    else if c = '\\' then some { r with scan := .escape points }
    else if c.toNat < 0x20 then none
    else some { r with scan := .string (c.toNat :: points) }
  | .escape points =>
    if c = 'u' then some { r with scan := .hex points 4 0 }
    else (escapePoint? c).map fun n => { r with scan := .string (n :: points) }
  | .hex points digits point =>
    match Text.digitValue? c with
    | none => none
    | some d =>
      let point := point * 16 + d
      if digits ≤ 1 then some { r with scan := .string (point :: points) }
      else some { r with scan := .hex points (digits - 1) point }

/-- The tree, if the text is complete. -/
def finish (r : Reading) : Option Tree :=
  match r.close with
  | some ⟨_, _, .nothing t⟩ => some t
  | _ => none

/-- The state before the first character. -/
def start : Reading := ⟨.between, [], .value⟩

end Reading

/-- Reads a whole text. -/
def read? (text : String) : Option Tree :=
  (text.toList.foldlM Reading.feed Reading.start).bind Reading.finish

end Tree

end TypeBundle.Json
