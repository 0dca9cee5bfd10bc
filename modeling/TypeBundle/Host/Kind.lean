import TypeBundle.Host.Basic
/-!
# Kinds of types

The flags of a type decide what kind of type it is. A type may have several flags; the first that
applies, in the order of `Kind.ofFlag`, decides. A type that no rule covers has no kind.
-/

namespace TypeBundle

/-- The kinds of types that a pass tells apart. -/
inductive Kind where
  | any
  | boolean
  | booleanLiteral
  | number
  | numberLiteral
  | string
  | stringLiteral
  | undefined
  | null
  | never
  | void
  | symbol
  | nonPrimitive
  | typeParameter
  | union
  | intersection
  | index
  | indexedAccess
  | conditional
  | enum
  /-- An instantiation of a generic type, tuples included. -/
  | reference
  /-- A class or an interface. -/
  | nominal
  /-- An object literal. -/
  | anonymous
deriving DecidableEq, Repr

/-- Why a type has no kind. -/
inductive KindFault where
  | unknownObject (flags : TypeFlags) (objectFlags : ObjectFlags)
  | unknownType (flags : TypeFlags)
deriving DecidableEq, Repr

namespace Kind

def name : Kind → String
  | any => "Any"
  | boolean => "Boolean"
  | booleanLiteral => "BooleanLiteral"
  | number => "Number"
  | numberLiteral => "NumberLiteral"
  | string => "String"
  | stringLiteral => "StringLiteral"
  | undefined => "Undefined"
  | null => "Null"
  | never => "Never"
  | void => "Void"
  | symbol => "Symbol"
  | nonPrimitive => "NonPrimitive"
  | typeParameter => "TypeParameter"
  | union => "Union"
  | intersection => "Intersection"
  | index => "Index"
  | indexedAccess => "IndexedAccess"
  | conditional => "Conditional"
  | enum => "Enum"
  | reference => "Reference"
  | nominal => "Nominal"
  | anonymous => "Anonymous"

/-- The flags that decide a kind other than that of an object, the first that applies first. Enums and
conditional types come first, since their other flags hide them; `boolean` comes before unions, since
it is the union of its literals. -/
def ofFlag : List (TypeFlags × Kind) :=
  [(.enum ||| .enumLiteral, enum),
   (.conditional, conditional),
   (.any, any),
   (.boolean, boolean),
   (.booleanLiteral, booleanLiteral),
   (.number, number),
   (.numberLiteral, numberLiteral),
   (.string, string),
   (.stringLiteral, stringLiteral),
   (.undefined, undefined),
   (.null, null),
   (.never, never),
   (.void, void),
   (.esSymbol ||| .uniqueEsSymbol, symbol),
   (.nonPrimitive, nonPrimitive),
   (.typeParameter, typeParameter),
   (.union, union),
   (.intersection, intersection),
   (.index, index),
   (.indexedAccess, indexedAccess)]

/-- The kind of an object type. -/
def ofObject? (flags : ObjectFlags) : Option Kind :=
  if flags.contains ObjectFlags.reference then some reference
  else if flags.intersects (ObjectFlags.class_ ||| ObjectFlags.interface) then some nominal
  else if flags.contains ObjectFlags.anonymous then some anonymous
  else none

/-- The kind of a type with these flags. -/
def ofFlags (flags : TypeFlags) (objectFlags : ObjectFlags) : Except KindFault Kind :=
  match ofFlag.find? fun (flag, _) => flags.intersects flag with
  | some (_, kind) => .ok kind
  | none =>
    if flags.contains TypeFlags.object then
      match ofObject? objectFlags with
      | some kind => .ok kind
      | none => .error (.unknownObject flags objectFlags)
    else .error (.unknownType flags)

end Kind

/-- The kind of a type. -/
def HostType.kind (t : HostType) : Except KindFault Kind := Kind.ofFlags t.flags t.objectFlags

end TypeBundle
