import TypeBundle.Number.Binary64
import TypeBundle.Text.Digits
/-!
# Reading numbers

The text of a number in the common notation of programming languages: a sign, digits with an optional
point that may stand first or last, and an optional exponent; or the words `inf`, `infinity` and `nan`
in any case. The result is the double nearest to what is written.
-/

namespace TypeBundle.Binary64

/-- The small letter of a capital one of the alphabet. -/
def lowercase (c : Char) : Char := if 'A' ≤ c ∧ c ≤ 'Z' then Char.ofNat (c.toNat + 32) else c

def isDecimalDigit (c : Char) : Bool := '0' ≤ c && c ≤ '9'

/-- The number with these decimal digits; zero if there are none. -/
def digitsToNat (cs : List Char) : Nat := cs.foldl (fun n c => n * 10 + (c.toNat - '0'.toNat)) 0

/-- Reads the exponent after its mark: a sign and at least one digit. -/
def parseExponent? (cs : List Char) : Option Int :=
  let (negative, ds) : Bool × List Char := match cs with
    | '+' :: ds => (false, ds)
    | '-' :: ds => (true, ds)
    | ds => (false, ds)
  if ds ≠ [] ∧ ds.all isDecimalDigit then
    let n : Int := digitsToNat ds
    some (if negative then -n else n)
  else none

/-- Reads a number without its sign. -/
def parseMagnitude? (negative : Bool) (cs : List Char) : Option Binary64 :=
  let word := String.ofList (cs.map lowercase)
  if word == "inf" || word == "infinity" then some (infinity negative)
  else if word == "nan" then some (nan negative)
  else
    let whole := cs.takeWhile isDecimalDigit
    let rest := cs.dropWhile isDecimalDigit
    let (fraction, rest) : List Char × List Char := match rest with
      | '.' :: rest => (rest.takeWhile isDecimalDigit, rest.dropWhile isDecimalDigit)
      | rest => ([], rest)
    if whole = [] ∧ fraction = [] then none
    else
      let exponent? := match rest with
        | [] => some 0
        | c :: rest => if lowercase c = 'e' then parseExponent? rest else none
      exponent?.map fun exponent =>
        ofDecimal negative (digitsToNat (whole ++ fraction)) (exponent - fraction.length)

/-- Reads a number. -/
def parse? (cs : List Char) : Option Binary64 :=
  match cs with
  | '-' :: cs => parseMagnitude? true cs
  | '+' :: cs => parseMagnitude? false cs
  | cs => parseMagnitude? false cs

end TypeBundle.Binary64
