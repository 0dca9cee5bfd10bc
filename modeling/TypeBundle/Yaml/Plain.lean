import TypeBundle.Document
import TypeBundle.Number.Text
import TypeBundle.Text.Digits
/-!
# Meaning of plain scalars

A scalar without quotes may stand for nothing, a truth value, an integer or a number. Integers are
decimal without leading zeros, or have one of the marks `0x`, `0o` and `0b`. What is none of these is
a string: `Plain.meaning` decides.
-/

namespace TypeBundle.Yaml.Plain

/-- Whether the scalar stands for no value. -/
def isNull (text : List Char) : Bool :=
  [[], ['~'], ['n', 'u', 'l', 'l'], ['N', 'u', 'l', 'l'], ['N', 'U', 'L', 'L']].contains text

def bool? (text : List Char) : Option Bool :=
  if ["true", "True", "TRUE"].any (·.toList == text) then some true
  else if ["false", "False", "FALSE"].any (·.toList == text) then some false
  else none

/-- The text without a plus sign at its start. -/
def withoutPlus : List Char → List Char
  | '+' :: cs => cs
  | cs => cs

/-- Whether these are several digits of which the first is a zero; a sign may precede them. Such a
scalar is a string. -/
def hasLeadingZero (text : List Char) : Bool :=
  let digits := match text with
    | '+' :: cs => cs
    | '-' :: cs => cs
    | cs => cs
  match digits with
  | '0' :: c :: cs => (c :: cs).all Binary64.isDecimalDigit
  | _ => false

/-- The number that digits stand for, with a mark of their base or without. -/
def magnitude? (digits : List Char) : Option Nat :=
  match digits with
  | '0' :: 'x' :: cs => Text.readNat? 16 cs
  | '0' :: 'o' :: cs => Text.readNat? 8 cs
  | '0' :: 'b' :: cs => Text.readNat? 2 cs
  | cs => Text.readNat? 10 cs

/-- The natural number that a scalar stands for; a plus sign may precede it. -/
def natural? (text : List Char) : Option Nat :=
  if hasLeadingZero text then none else magnitude? (withoutPlus text)

/-- The integer that a scalar stands for. -/
def integer? (text : List Char) : Option Int :=
  match text with
  | '-' :: digits => if hasLeadingZero text then none else (magnitude? digits).map fun n => -(n : Int)
  | _ => (natural? text).map fun n => (n : Int)

/-- The number that a scalar stands for; those out of range have none. -/
def float? (text : List Char) : Option Binary64 :=
  let unsigned := withoutPlus text
  if hasLeadingZero text then none
  else if [".inf", ".Inf", ".INF"].any (·.toList == unsigned) then some (.infinity false)
  else if ["-.inf", "-.Inf", "-.INF"].any (·.toList == text) then some (.infinity true)
  else if [".nan", ".NaN", ".NAN"].any (·.toList == text) then some (.nan false)
  else if text.head? = some '+' ∧ (unsigned.head? = some '+' ∨ unsigned.head? = some '-') then none
  else (Binary64.parse? unsigned).filter Binary64.isFinite

/-- What a plain scalar stands for. -/
inductive Meaning where
  | null
  | boolean (value : Bool)
  | number (value : Binary64)
  /-- An integer that has more than 64 bits and at most 128. -/
  | wideInteger
  | string
deriving DecidableEq, Repr

/-- The meaning of a scalar that is no integer of up to 128 bits. -/
def floatOrString (text : List Char) : Meaning :=
  match float? text with
  | some x => .number x
  | none => .string

/-- What a plain scalar stands for. -/
def meaning (text : List Char) : Meaning :=
  if isNull text then .null
  else match bool? text with
    | some b => .boolean b
    | none =>
      match integer? text with
      | some n =>
        if -0x8000000000000000 ≤ n ∧ n < 0x10000000000000000 then .number (.ofInt n)
        else if -0x80000000000000000000000000000000 ≤ n ∧
            n < 0x100000000000000000000000000000000 then .wideInteger
        else floatOrString text
      | none => floatOrString text

/-- The literal that a plain scalar stands for. Wide integers are refused. -/
def literal? (text : String) : Option Literal :=
  match meaning text.toList with
  | .null => none
  | .boolean b => some (.boolean b)
  | .number x => some (.number x)
  | .wideInteger => none
  | .string => some (.string text)

end TypeBundle.Yaml.Plain
