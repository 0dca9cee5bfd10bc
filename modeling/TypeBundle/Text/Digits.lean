/-!
# Digits

Reading and writing natural numbers in a base up to sixteen. Reading takes both cases of the
letters, writing uses the small ones.
-/

namespace TypeBundle.Text

/-- The value of a hexadecimal digit. -/
def digitValue? (c : Char) : Option Nat :=
  if '0' ≤ c ∧ c ≤ '9' then some (c.toNat - '0'.toNat)
  else if 'a' ≤ c ∧ c ≤ 'f' then some (c.toNat - 'a'.toNat + 10)
  else if 'A' ≤ c ∧ c ≤ 'F' then some (c.toNat - 'A'.toNat + 10)
  else none

/-- Reads on from the number `read` so far; every character must be a digit of the base. -/
def readOn? (base : Nat) (read : Nat) : List Char → Option Nat
  | [] => some read
  | c :: cs =>
    match digitValue? c with
    | some d => if d < base then readOn? base (read * base + d) cs else none
    | none => none

/-- The number with these digits; there must be one. -/
def readNat? (base : Nat) : List Char → Option Nat
  | [] => none
  | cs => readOn? base 0 cs

/-- The number with these digits, which a plus sign may precede. -/
def readSigned? (base : Nat) : List Char → Option Nat
  | '+' :: cs => readNat? base cs
  | cs => readNat? base cs

/-- The digits of a number. -/
def digits (base : Nat) (n : Nat) : List Char := Nat.toDigits base n

/-- The decimal digits of a number. -/
def decimal (n : Nat) : List Char := digits 10 n

/-- An integer, with a minus sign if it is negative. -/
def integer : Int → List Char
  | .ofNat n => decimal n
  | .negSucc n => '-' :: decimal (n + 1)

end TypeBundle.Text
