/-!
# Double-precision numbers

A number of the format binary64 is its 64 bits: a sign, eleven bits of exponent, 52 of fraction. All
reasoning is on natural numbers. `units` is the magnitude of a finite number as a multiple of
2^-1074, the least positive number of the format, so every finite number is an integer in that unit.

`nearest` rounds a quotient of naturals to the format, ties to the even neighbour. The bits of a
magnitude grow with the magnitude: a rounded significand q at shift s has the bits s * 2^52 + q, also
where q has one bit less (subnormal numbers) or one more (a carry into the next binade), and anything
at or above the bits of infinity is infinite.
-/

namespace TypeBundle

/-- A number of the format binary64. -/
structure Binary64 where
  bits : UInt64
deriving DecidableEq, Repr, Inhabited

namespace Binary64

/-! ## Reading the bits -/

def isNegative (x : Binary64) : Bool := x.bits.toNat / 0x8000000000000000 == 1

/-- The bits of the magnitude. -/
def magnitude (x : Binary64) : Nat := x.bits.toNat % 0x8000000000000000

def exponentField (x : Binary64) : Nat := x.magnitude / 0x10000000000000

def fractionField (x : Binary64) : Nat := x.magnitude % 0x10000000000000

def isFinite (x : Binary64) : Bool := x.exponentField != 2047

def isNaN (x : Binary64) : Bool := x.exponentField == 2047 && x.fractionField != 0

def isInfinite (x : Binary64) : Bool := x.exponentField == 2047 && x.fractionField == 0

def isZero (x : Binary64) : Bool := x.magnitude == 0

/-- The significand: 53 bits of a normal number, the fraction of a subnormal one. -/
def significand (x : Binary64) : Nat :=
  if x.exponentField = 0 then x.fractionField else 0x10000000000000 + x.fractionField

/-- How often the significand is doubled, in the unit 2^-1074. -/
def shift (x : Binary64) : Nat := x.exponentField - 1

/-- The magnitude of a finite number in the unit 2^-1074. -/
def units (x : Binary64) : Nat := x.significand <<< x.shift

/-- The unit of `units` is one over this number. -/
def unitsPerOne : Nat := Nat.pow 2 1074

/-- Whether a finite number is an integer. -/
def isIntegral (x : Binary64) : Bool := x.units % unitsPerOne == 0

/-- The integer part of the magnitude of a finite number. -/
def whole (x : Binary64) : Nat := x.units / unitsPerOne

/-- The integer part of a finite number. -/
def truncated (x : Binary64) : Int := if x.isNegative then -x.whole else x.whole

/-- The 64-bit integer to which a number is cut: its fraction is dropped, out of range it becomes the
nearest bound, and what is not a number becomes zero. -/
def toInt64 (x : Binary64) : Int64 := if x.isNaN then 0 else .ofIntClamp x.truncated

/-! ## Making numbers -/

/-- The number with this sign and these bits of magnitude. -/
def ofMagnitude (negative : Bool) (magnitude : Nat) : Binary64 :=
  ⟨(if negative then magnitude + 0x8000000000000000 else magnitude).toUInt64⟩

/-- The bits of infinity. -/
def infinityBits : Nat := 2047 * 0x10000000000000

def infinity (negative : Bool) : Binary64 := ofMagnitude negative infinityBits

/-- The quiet number that is not a number, with either sign. -/
def nan (negative : Bool) : Binary64 := ofMagnitude negative (infinityBits + 0x8000000000000)

def zero (negative : Bool) : Binary64 := ofMagnitude negative 0

/-- The same magnitude with the other sign. -/
def negate (x : Binary64) : Binary64 := ofMagnitude (!x.isNegative) x.magnitude

/-- The integer nearest to a quotient; a tie goes to the even one. -/
def roundHalfEven (num den : Nat) : Nat :=
  let q := num / den
  let r := num % den
  if 2 * r < den then q
  else if den < 2 * r then q + 1
  else if q % 2 = 0 then q else q + 1

/-- The number nearest to the quotient `num / den`; infinite if that is out of range. -/
def nearest (negative : Bool) (num den : Nat) : Binary64 :=
  let scaled := num * unitsPerOne
  let shift := Nat.log2 (scaled / den) - 52
  let q := roundHalfEven scaled (den <<< shift)
  ofMagnitude negative (min (shift * 0x10000000000000 + q) infinityBits)

/-- The number nearest to an integer. -/
def ofInt (n : Int) : Binary64 := nearest (n < 0) n.natAbs 1

/-- The number nearest to `digits * 10 ^ exponent`. Beyond the range of the format the powers need
not be computed: with `digits > 0` a positive exponent above 400 is infinite, and when the exponent is
400 below the number of digits the result is zero. -/
def ofDecimal (negative : Bool) (digits : Nat) (exponent : Int) : Binary64 :=
  if digits = 0 then zero negative
  else match exponent with
    | .ofNat e => if 400 < e then infinity negative else nearest negative (digits * Nat.pow 10 e) 1
    | .negSucc e =>
      if Nat.log2 digits + 400 < e + 1 then zero negative
      else nearest negative digits (Nat.pow 10 (e + 1))

/-! ## Products and quotients of finite positive numbers -/

/-- The product of the magnitudes, rounded. -/
def timesMagnitude (x y : Binary64) : Binary64 :=
  nearest false (x.units * y.units) (unitsPerOne * unitsPerOne)

/-- The quotient of the magnitudes, rounded. -/
def overMagnitude (x y : Binary64) : Binary64 := nearest false x.units y.units

/-- The number nearest to a power of ten. -/
def powerOfTen (e : Nat) : Binary64 := nearest false (Nat.pow 10 e) 1

/-! ## Small laws -/

theorem isFinite_eq_false_iff {x : Binary64} :
    x.isFinite = false ↔ x.isNaN = true ∨ x.isInfinite = true := by
  unfold isFinite isNaN isInfinite
  by_cases h : x.exponentField = 2047 <;> by_cases h' : x.fractionField = 0 <;> simp [h, h']

end Binary64

end TypeBundle
