import TypeBundle.Number.Shortest
import TypeBundle.Text.Digits
/-!
# Layout of numbers

How a format writes the shortest decimal of a number. With the value 0.d1d2... * 10^p, the point
position p decides between positional and scientific notation; a positional integer keeps `.0`.
-/

namespace TypeBundle

/-- The choices of a format that writes numbers. -/
structure NumberLayout where
  /-- Scientific notation is used for point positions up to this one. -/
  scientificUpTo : Int
  /-- Scientific notation is used for point positions above this one. -/
  scientificAbove : Int
  /-- Whether a positive exponent has a plus sign. -/
  plusSign : Bool
  /-- Where exact ties between shortest decimals go. -/
  tie : TieRule
  /-- The text for what is not a number. -/
  notANumber : String
  /-- The texts for positive and negative infinity. -/
  infinite : String × String
deriving Repr

namespace NumberLayout

/-- JSON has no text for numbers that are not finite and writes `null` in their place. -/
def json : NumberLayout := ⟨-5, 16, true, .toEven, "null", ("null", "null")⟩

/-- YAML spells out what is not finite and leaves the plus sign of exponents away. -/
def yaml : NumberLayout := ⟨-5, 16, false, .toEven, ".nan", (".inf", "-.inf")⟩

/-- In messages scientific notation starts below 10^-4, and ties go up. -/
def message : NumberLayout := ⟨-4, 16, false, .up, "NaN", ("inf", "-inf")⟩

/-- The positional text of a decimal with these digits and point position. -/
def positional (ds : List Char) (point : Int) : List Char :=
  if point ≤ 0 then '0' :: '.' :: (List.replicate (-point).toNat '0' ++ ds)
  else
    let p := point.toNat
    if ds.length ≤ p then ds ++ List.replicate (p - ds.length) '0' ++ ['.', '0']
    else ds.take p ++ '.' :: ds.drop p

/-- The scientific text of a decimal with these digits and point position. -/
def scientific (plusSign : Bool) (ds : List Char) (point : Int) : List Char :=
  let exponent := point - 1
  ds.take 1 ++ (if ds.length ≤ 1 then [] else '.' :: ds.drop 1) ++
    'e' :: ((if plusSign && decide (0 ≤ exponent) then ['+'] else []) ++ Text.integer exponent)

/-- The text of the magnitude of a finite number. -/
def magnitude (l : NumberLayout) (x : Binary64) : List Char :=
  if x.isZero then ['0', '.', '0']
  else
    let d := x.shortest l.tie
    let ds := Text.decimal d.digits
    let point := d.exponent + ds.length
    if point ≤ l.scientificUpTo ∨ l.scientificAbove < point then scientific l.plusSign ds point
    else positional ds point

/-- The text of a number. -/
def write (l : NumberLayout) (x : Binary64) : List Char :=
  if x.isNaN then l.notANumber.toList
  else if x.isInfinite then (if x.isNegative then l.infinite.2 else l.infinite.1).toList
  else (if x.isNegative then ['-'] else []) ++ l.magnitude x

end NumberLayout

end TypeBundle
