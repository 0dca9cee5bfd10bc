import TypeBundle.Document
/-!
# Outlines

A document that is to be written, before its format is chosen: words, strings, scalars of literal
types, lists and objects with their fields in order.
-/

namespace TypeBundle

/-- A document without a format. -/
inductive Outline where
  | word (n : UInt64)
  | string (s : String)
  | literal (l : Literal)
  | list (items : List Outline)
  | object (fields : List (String × Outline))

namespace Outline

open Json (Value)

/-- A literal as JSON, where a number that is not finite has no text. -/
def ofLiteral : Literal → Value
  | .boolean b => .bool b
  | .number x => .orNull ((Json.Number.ofFloat? x).map .number)
  | .string s => .string s

mutual
/-- The document as JSON. -/
def toJson : Outline → Value
  | word n => .number (.ofUInt64 n)
  | string s => .string s
  | literal l => ofLiteral l
  | list items => .array (toJsonItems items)
  | object fields => .object (toJsonFields fields)

def toJsonItems : List Outline → List Value
  | [] => []
  | o :: os => toJson o :: toJsonItems os

def toJsonFields : List (String × Outline) → List (String × Value)
  | [] => []
  | field :: fields => toJsonField field :: toJsonFields fields

def toJsonField : String × Outline → String × Value
  | (name, o) => (name, toJson o)
end

/-- An object without the fields that have no value. -/
def objectOf (fields : List (String × Option Outline)) : Outline :=
  .object (fields.filterMap fun (name, o?) => o?.map fun o => (name, o))

/-- A list of words, or nothing if it is empty. -/
def nonEmpty? : List UInt64 → Option Outline
  | [] => none
  | ns => some (.list (ns.map .word))

end Outline

end TypeBundle
