import TypeBundle.Number.Layout
/-!
# JSON numbers

A JSON number of the library is an integer that fits 64 bits, signed or unsigned, or a finite double.
`Numeral` is a number as written, and `Numeral.value?` is what it stands for:

- without fraction and exponent it is an integer if that fits, and negative zero is a double;
- else its digits are read as far as they fit 64 bits unsigned, and the double nearest to them is
  multiplied or divided by the double nearest to a power of ten. This rounds twice, so the result is
  not always the double nearest to what is written. A result out of range has no value.
-/

namespace TypeBundle.Json

/-- A number of a JSON value. -/
inductive Number where
  | integer (value : Int) (fits : -0x8000000000000000 ≤ value ∧ value < 0x10000000000000000)
  | float (value : Binary64) (finite : value.isFinite = true)
deriving DecidableEq

namespace Number

instance : Inhabited Number := ⟨.integer 0 (by decide)⟩

/-- The integer as a number, if it fits. -/
def ofInt? (n : Int) : Option Number :=
  if fits : -0x8000000000000000 ≤ n ∧ n < 0x10000000000000000 then some (.integer n fits) else none

/-- The double as a number, if it is finite. -/
def ofFloat? (x : Binary64) : Option Number :=
  if finite : x.isFinite = true then some (.float x finite) else none

/-- A signed 64-bit integer. -/
def ofInt64 (n : Int64) : Number :=
  .integer n.toInt ⟨n.le_toInt, by have := n.toInt_lt; omega⟩

/-- A 64-bit word. -/
def ofUInt64 (n : UInt64) : Number :=
  .integer n.toNat ⟨by omega, by have := n.toNat_lt; omega⟩

/-- A 32-bit word. -/
def ofUInt32 (n : UInt32) : Number :=
  .integer n.toNat ⟨by omega, by have := n.toNat_lt; omega⟩

/-- A count; counts beyond 64 bits do not occur. -/
def ofCount (n : Nat) : Number :=
  .integer ((min n 0xFFFFFFFFFFFFFFFF : Nat) : Int) ⟨by omega, by omega⟩

/-- The double nearest to the number. -/
def toFloat : Number → Binary64
  | .integer n _ => Binary64.ofInt n
  | .float x _ => x

/-- The natural number that an integer is. -/
def toNat? : Number → Option Nat
  | .integer (.ofNat n) _ => some n
  | _ => none

/-- The text of the number. -/
def write : Number → List Char
  | .integer n _ => Text.integer n
  | .float x _ => NumberLayout.json.write x

end Number

/-- A number as it is written. -/
structure Numeral where
  negative : Bool
  whole : List Nat
  fraction : List Nat
  exponent? : Option Int
deriving DecidableEq, Repr

namespace Numeral

def isDigit (c : Char) : Bool := '0' ≤ c && c ≤ '9'

def digitsOf (cs : List Char) : List Nat := cs.map fun c => c.toNat - '0'.toNat

/-- The number with these decimal digits. -/
def natOf (ds : List Nat) : Nat := ds.foldl (fun n d => n * 10 + d) 0

/-- Reads the exponent of a numeral, all that stands after its mark. -/
def exponentOf? (cs : List Char) : Option Int :=
  let (negative, ds) : Bool × List Char := match cs with
    | '+' :: ds => (false, ds)
    | '-' :: ds => (true, ds)
    | ds => (false, ds)
  if ds ≠ [] ∧ ds.all isDigit then
    let n : Int := natOf (digitsOf ds)
    some (if negative then -n else n)
  else none

/-- Reads a numeral: an optional minus sign, digits without a leading zero, and optionally a fraction
and an exponent. -/
def ofChars? (cs : List Char) : Option Numeral := do
  let (negative, cs) : Bool × List Char := match cs with
    | '-' :: rest => (true, rest)
    | rest => (false, rest)
  let whole := cs.takeWhile isDigit
  let cs := cs.dropWhile isDigit
  guard (whole ≠ [] ∧ (whole.head? = some '0' → whole.length = 1))
  let (fraction, cs) ← match cs with
    | '.' :: rest =>
      let fraction := rest.takeWhile isDigit
      if fraction = [] then none else some (fraction, rest.dropWhile isDigit)
    | rest => some ([], rest)
  let exponent? ← match cs with
    | [] => some none
    | c :: rest => if c = 'e' ∨ c = 'E' then (exponentOf? rest).map some else none
  return ⟨negative, digitsOf whole, digitsOf fraction, exponent?⟩

/-- Reads digits on from `n` as long as the number fits 64 bits unsigned; returns what is left. -/
def readFitting (n : Nat) : List Nat → Nat × List Nat
  | [] => (n, [])
  | d :: ds => if 0x10000000000000000 ≤ n * 10 + d then (n, d :: ds) else readFitting (n * 10 + d) ds

/-- Divides by 10^308 as often as asked, until nothing is left of the number. -/
def divideBySteps (x : Binary64) : Nat → Binary64
  | 0 => x
  | steps + 1 =>
    if x.isZero then x
    else divideBySteps (x.overMagnitude (.powerOfTen 308)) steps

/-- The double nearest to `digits`, multiplied or divided by the double nearest to a power of ten. -/
def scaled? (digits : Nat) (exponent : Int) : Option Binary64 :=
  let x := Binary64.nearest false digits 1
  match exponent with
  | .ofNat e =>
    if e ≤ 308 then
      let y := x.timesMagnitude (.powerOfTen e)
      if y.isFinite then some y else none
    else if x.isZero then some x else none
  | .negSucc n =>
    let e := n + 1
    -- the last division is by a power up to 308, each one before it by 10^308
    let steps := (e - 1) / 308
    some ((divideBySteps x steps).overMagnitude (.powerOfTen (e - 308 * steps)))

/-- The double that the numeral stands for, if it is in range. -/
def float? (t : Numeral) : Option Binary64 :=
  let (digits, unread) := readFitting 0 t.whole
  let (digits, dropped) := readFitting digits t.fraction
  let exponent : Int := unread.length - (t.fraction.length - dropped.length : Nat)
  (scaled? digits (exponent + t.exponent?.getD 0)).map fun x => if t.negative then x.negate else x

/-- What the numeral stands for, if it is in range. -/
def value? (t : Numeral) : Option Number :=
  let asFloat := t.float?.bind Number.ofFloat?
  if t.fraction ≠ [] ∨ t.exponent?.isSome then asFloat
  else
    let n := natOf t.whole
    if t.negative then
      if n = 0 ∨ 0x8000000000000000 < n then asFloat else Number.ofInt? (-n)
    else
      if 0x10000000000000000 ≤ n then asFloat else Number.ofInt? n

end Numeral

end TypeBundle.Json
