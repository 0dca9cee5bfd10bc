import TypeBundle.Number.Binary64
/-!
# Shortest decimals

Every real near a finite number rounds to it; those reals form an interval, which holds its ends when
the significand is even. The shortest decimal of the number is found on the coarsest grid of powers of
ten that has a point in the interval: a point of a grid lies on every finer one, so no decimal with
fewer digits reads back. On that grid only the two neighbours of the number matter; if both lie in the
interval the nearer is taken, and an exact tie is left to the caller.
-/

namespace TypeBundle

/-- The number `digits * 10 ^ exponent`. -/
structure Decimal where
  digits : Nat
  exponent : Int
deriving DecidableEq, Repr

/-- Where an exact tie between two shortest decimals goes. -/
inductive TieRule where
  | toEven
  | up
deriving DecidableEq, Repr

namespace Binary64

/-- The reals that round to a positive number: those between `low / scale` and `high / scale`. -/
structure Interval where
  low : Nat
  high : Nat
  scale : Nat
  closed : Bool
deriving DecidableEq, Repr

/-- The interval of reals that round to a finite number other than zero. Below a power of two the
next number is only half as far away. -/
def interval (x : Binary64) : Interval :=
  let gap := Nat.pow 2 x.shift
  let below := if x.fractionField = 0 ∧ 1 < x.exponentField then gap else 2 * gap
  { low := 4 * x.units - below
    high := 4 * x.units + 2 * gap
    scale := 4 * unitsPerOne
    closed := x.significand % 2 == 0 }

/-- Whether the interval holds `num / den`. -/
def Interval.holds (i : Interval) (num den : Nat) : Bool :=
  let below := i.low * den
  let above := i.high * den
  let point := num * i.scale
  if i.closed then below ≤ point && point ≤ above else below < point && point < above

/-- The decimal of the grid `10 ^ exponent` that the interval holds, nearest to the number. -/
def onGrid? (tie : TieRule) (x : Binary64) (exponent : Int) : Option Decimal :=
  let (up, down) : Nat × Nat := match exponent with
    | .ofNat e => (Nat.pow 10 e, 1)
    | .negSucc e => (1, Nat.pow 10 (e + 1))
  let num := x.units * down
  let den := unitsPerOne * up
  let c := num / den
  let lower := x.interval.holds (c * up) down
  let upper := x.interval.holds ((c + 1) * up) down
  let chosen :=
    if lower && upper then
      let r := num % den
      if 2 * r < den then some c
      else if den < 2 * r then some (c + 1)
      else match tie with
        | .toEven => if c % 2 = 0 then some c else some (c + 1)
        | .up => some (c + 1)
    else if lower then some c
    else if upper then some (c + 1)
    else none
  chosen.map fun digits => ⟨digits, exponent⟩

/-- The first hit among the grids with exponents below `start`, from the coarsest on. -/
def onGridsBelow? (tie : TieRule) (x : Binary64) (start : Int) : Nat → Option Decimal
  | 0 => none
  | steps + 1 =>
    match onGrid? tie x (start - 1) with
    | some d => some d
    | none => onGridsBelow? tie x (start - 1) steps

/-- The shortest decimal that reads back as the magnitude of `x`. No number of the format reaches
10^309, and a step of 10^-1074 is finer than any of them. -/
def shortest (tie : TieRule) (x : Binary64) : Decimal :=
  if x.isZero then ⟨0, 0⟩
  else (onGridsBelow? tie x 310 (310 + 1074)).getD ⟨x.units, -1074⟩

end Binary64

end TypeBundle
