import TypeBundle.Number.Text
import TypeBundle.Text.Digits
import TypeBundle.Toml.Value
/-!
# Words of TOML

The values that are written without quotes: booleans, integers of 64 bits, numbers, dates and times.
Underscores may stand between digits.
-/

namespace TypeBundle.Toml.Word

def isLetter (c : Char) : Bool := ('a' ≤ c && c ≤ 'z') || ('A' ≤ c && c ≤ 'Z')

def isDigit (c : Char) : Bool := '0' ≤ c && c ≤ '9'

/-- Whether a key may hold the character without quotes. -/
def isKeyChar (c : Char) : Bool := isLetter c || isDigit c || c == '-' || c == '_'

/-- Whether a value may hold the character without quotes. -/
def isValueChar (c : Char) : Bool := isKeyChar c || c == '+' || c == '.' || c == ':'

/-- The digits without the underscores between them; there must be a digit on either side of each. -/
def ungroup? (isDigit : Char → Bool) : List Char → Option (List Char)
  | [] => none
  | [c] => if isDigit c then some [c] else none
  | c :: '_' :: cs => if isDigit c then (ungroup? isDigit cs).map (c :: ·) else none
  | c :: d :: cs => if isDigit c then (ungroup? isDigit (d :: cs)).map (c :: ·) else none

/-! ## Numbers -/

/-- The sign of a number and what follows. -/
def sign : List Char → Bool × List Char
  | '+' :: cs => (false, cs)
  | '-' :: cs => (true, cs)
  | cs => (false, cs)

/-- The digits of a whole number without a sign, which has no leading zeros. -/
def wholeDigits? (cs : List Char) : Option (List Char) :=
  (ungroup? isDigit cs).filter fun ds => ds.length == 1 || ds.head? != some '0'

def isDecimalInteger (cs : List Char) : Bool :=
  let (negative, cs) := sign cs
  match (wholeDigits? cs).bind (Text.readNat? 10) with
  | some n => if negative then n ≤ 0x8000000000000000 else n < 0x8000000000000000
  | none => false

/-- Whether these digits of a base make an integer. -/
def isMagnitude (base : Nat) (cs : List Char) : Bool :=
  let isDigit c := (Text.digitValue? c).any (· < base)
  match (ungroup? isDigit cs).bind (Text.readNat? base) with
  | some n => n < 0x8000000000000000
  | none => false

def isInteger (cs : List Char) : Bool :=
  match cs with
  | '0' :: 'x' :: cs => isMagnitude 16 cs
  | '0' :: 'o' :: cs => isMagnitude 8 cs
  | '0' :: 'b' :: cs => isMagnitude 2 cs
  | cs => isDecimalInteger cs

/-- Whether these are digits after a point. -/
def isFraction (cs : List Char) : Bool := (ungroup? isDigit cs).isSome

/-- Whether this is an exponent with its mark. -/
def isExponent (cs : List Char) : Bool :=
  match cs with
  | c :: cs => (c == 'e' || c == 'E') && (ungroup? isDigit (sign cs).2).isSome
  | [] => false

/-- Whether this is a number with a fraction or an exponent, or not finite. A positive number out of
range is refused. -/
def isFloat (cs : List Char) : Bool :=
  let unsigned := (sign cs).2
  if unsigned = ['i', 'n', 'f'] ∨ unsigned = ['n', 'a', 'n'] then true
  else
    let isMark c := c == 'e' || c == 'E'
    let whole := unsigned.takeWhile fun c => !(c == '.' || isMark c)
    let rest := unsigned.dropWhile fun c => !(c == '.' || isMark c)
    let wellFormed :=
      match rest with
      | '.' :: rest =>
        let exponent := rest.dropWhile fun c => !isMark c
        isFraction (rest.takeWhile fun c => !isMark c) && (exponent.isEmpty || isExponent exponent)
      | rest => isExponent rest
    (wholeDigits? whole).isSome && wellFormed &&
      (Binary64.parse? (cs.filter (· ≠ '_'))).any fun x => x.isFinite || x.isNegative

/-! ## Dates and times -/

/-- Reads a number of two digits up to a bound. -/
def twoDigits? (least most : Nat) : List Char → Option (Nat × List Char)
  | c :: d :: cs =>
    if isDigit c && isDigit d then
      let n := (c.toNat - '0'.toNat) * 10 + (d.toNat - '0'.toNat)
      if least ≤ n ∧ n ≤ most then some (n, cs) else none
    else none
  | _ => none

/-- Reads one character. -/
def expect? (c : Char) : List Char → Option (List Char)
  | d :: cs => if d = c then some cs else none
  | [] => none

def daysInMonth (year month : Nat) : Nat :=
  if month = 2 then
    if year % 4 = 0 ∧ (year % 100 ≠ 0 ∨ year % 400 = 0) then 29 else 28
  else if month = 4 ∨ month = 6 ∨ month = 9 ∨ month = 11 then 30
  else 31

/-- Reads a date; returns what follows. -/
def date? (cs : List Char) : Option (List Char) := do
  let (century, cs) ← twoDigits? 0 99 cs
  let (year, cs) ← twoDigits? 0 99 cs
  let (month, cs) ← twoDigits? 1 12 (← expect? '-' cs)
  let (_, cs) ← twoDigits? 1 (daysInMonth (century * 100 + year) month) (← expect? '-' cs)
  return cs

/-- Reads a time of day; returns what follows. -/
def time? (cs : List Char) : Option (List Char) := do
  let (_, cs) ← twoDigits? 0 23 cs
  let (_, cs) ← twoDigits? 0 59 (← expect? ':' cs)
  let (_, cs) ← twoDigits? 0 60 (← expect? ':' cs)
  match cs with
  | '.' :: c :: cs => if isDigit c then return cs.dropWhile isDigit else none
  | '.' :: [] => none
  | cs => return cs

/-- Whether this is nothing or the offset of a time. -/
def isOffset (cs : List Char) : Bool :=
  match cs with
  | [] => true
  | c :: cs =>
    if c = 'Z' ∨ c = 'z' then cs.isEmpty
    else if c = '+' ∨ c = '-' then
      let rest? := do
        let (_, cs) ← twoDigits? 0 23 cs
        let (_, cs) ← twoDigits? 0 59 (← expect? ':' cs)
        return cs
      rest? == some []
    else false

/-- Whether this is a date alone. -/
def isDate (cs : List Char) : Bool := date? cs == some []

def isMoment (cs : List Char) : Bool :=
  time? cs == some [] ||
    match date? cs with
    | none => false
    | some [] => true
    | some (c :: cs) => (c == 'T' || c == 't' || c == ' ') && (time? cs).any isOffset

/-- The value that a word stands for. -/
def value? (cs : List Char) : Option Value :=
  if cs = ['t', 'r', 'u', 'e'] then some (.boolean true)
  else if cs = ['f', 'a', 'l', 's', 'e'] then some (.boolean false)
  else if isMoment cs then some .moment
  else if isInteger cs || isFloat cs then some .number
  else none

end TypeBundle.Toml.Word
