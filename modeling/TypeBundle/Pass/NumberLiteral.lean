import TypeBundle.Json.Number
/-!
# The JSON form of numeric literals

A numeric literal is written as an integer as long as every integer up to its size has a double of its
own, and as a double otherwise. Both zeros are the integer zero; what is not finite has no form.
-/

namespace TypeBundle.Json.Number

/-- The greatest integer up to which all integers have a double of their own. -/
def greatestSafeInteger : Nat := 0x1FFFFFFFFFFFFF

/-- The number as a literal. -/
def ofLiteral? (x : Binary64) : Option Number :=
  if x.isFinite then
    if x.isIntegral && decide (x.units ≤ greatestSafeInteger * Binary64.unitsPerOne) then
      some (.ofInt64 x.toInt64)
    else ofFloat? x
  else none

end TypeBundle.Json.Number
