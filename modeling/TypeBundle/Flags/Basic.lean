import TypeBundle.Text.Blank
import TypeBundle.Text.Digits
/-!
# Flag sets

A type checker describes types, object types, symbols and declarations by sets of flags. Each kind
has a vocabulary, whose names stand for the lowest bits of a 32-bit word in order. Bits without a
name are kept.
-/

namespace TypeBundle

/-- What the flags of a set describe. -/
inductive Vocabulary where
  | type
  | object
  | symbol
  | modifier
deriving DecidableEq, Repr

namespace Vocabulary

/-- The name of the vocabulary in messages. -/
def label : Vocabulary → String
  | type => "TypeFlags"
  | object => "ObjectFlags"
  | symbol => "SymbolFlags"
  | modifier => "ModifierFlags"

/-- The names of the flags; the position of a name is its bit. -/
def names : Vocabulary → List String
  | type =>
    ["ANY", "UNKNOWN", "STRING", "NUMBER", "BOOLEAN", "ENUM", "BIG_INT", "STRING_LITERAL",
     "NUMBER_LITERAL", "BOOLEAN_LITERAL", "ENUM_LITERAL", "BIG_INT_LITERAL", "ES_SYMBOL",
     "UNIQUE_ES_SYMBOL", "VOID", "UNDEFINED", "NULL", "NEVER", "TYPE_PARAMETER", "OBJECT", "UNION",
     "INTERSECTION", "INDEX", "INDEXED_ACCESS", "CONDITIONAL", "SUBSTITUTION", "NON_PRIMITIVE"]
  | object =>
    ["CLASS", "INTERFACE", "REFERENCE", "TUPLE", "ANONYMOUS", "MAPPED", "INSTANTIATED",
     "OBJECT_LITERAL"]
  | symbol =>
    ["VARIABLE", "PROPERTY", "FUNCTION", "CLASS", "INTERFACE", "MODULE", "METHOD", "GET_ACCESSOR",
     "SET_ACCESSOR", "TYPE_ALIAS", "OPTIONAL"]
  | modifier =>
    ["EXPORT", "AMBIENT", "PUBLIC", "PRIVATE", "PROTECTED", "STATIC", "READONLY", "ABSTRACT"]

end Vocabulary

/-- A set of flags of one vocabulary. -/
structure Flags (v : Vocabulary) where
  bits : UInt32
deriving DecidableEq, Repr

abbrev TypeFlags := Flags .type
abbrev ObjectFlags := Flags .object
abbrev SymbolFlags := Flags .symbol
abbrev ModifierFlags := Flags .modifier

namespace Flags

variable {v : Vocabulary}

/-- The set without flags. -/
def empty : Flags v := ⟨0⟩

instance : Inhabited (Flags v) := ⟨empty⟩

instance : OrOp (Flags v) := ⟨fun a b => ⟨a.bits ||| b.bits⟩⟩

instance : AndOp (Flags v) := ⟨fun a b => ⟨a.bits &&& b.bits⟩⟩

/-- The set with the one flag of a bit. -/
def single (bit : UInt32) : Flags v := ⟨1 <<< bit⟩

def isEmpty (a : Flags v) : Bool := a.bits == 0

/-- Whether `a` has all flags of `b`. -/
def contains (a b : Flags v) : Bool := a.bits &&& b.bits == b.bits

/-- Whether `a` has some flag of `b`. -/
def intersects (a b : Flags v) : Bool := a.bits &&& b.bits != 0

/-- Whether the bit is set. -/
def has (a : Flags v) (bit : Nat) : Bool := a.bits.toNat.testBit bit

/-- The bits of the set that have no name, in place. -/
def unnamed (a : Flags v) : Nat := a.bits.toNat >>> v.names.length <<< v.names.length

end Flags

namespace TypeFlags
def any : TypeFlags := .single 0
def string : TypeFlags := .single 2
def number : TypeFlags := .single 3
def boolean : TypeFlags := .single 4
def enum : TypeFlags := .single 5
def stringLiteral : TypeFlags := .single 7
def numberLiteral : TypeFlags := .single 8
def booleanLiteral : TypeFlags := .single 9
def enumLiteral : TypeFlags := .single 10
def esSymbol : TypeFlags := .single 12
def uniqueEsSymbol : TypeFlags := .single 13
def void : TypeFlags := .single 14
def undefined : TypeFlags := .single 15
def null : TypeFlags := .single 16
def never : TypeFlags := .single 17
def typeParameter : TypeFlags := .single 18
def object : TypeFlags := .single 19
def union : TypeFlags := .single 20
def intersection : TypeFlags := .single 21
def index : TypeFlags := .single 22
def indexedAccess : TypeFlags := .single 23
def conditional : TypeFlags := .single 24
def nonPrimitive : TypeFlags := .single 26
end TypeFlags

namespace ObjectFlags
def class_ : ObjectFlags := .single 0
def interface : ObjectFlags := .single 1
def reference : ObjectFlags := .single 2
def tuple : ObjectFlags := .single 3
def anonymous : ObjectFlags := .single 4
def mapped : ObjectFlags := .single 5
end ObjectFlags

namespace SymbolFlags
def variable_ : SymbolFlags := .single 0
def property : SymbolFlags := .single 1
def function : SymbolFlags := .single 2
def class_ : SymbolFlags := .single 3
def interface : SymbolFlags := .single 4
def module : SymbolFlags := .single 5
def method : SymbolFlags := .single 6
def getAccessor : SymbolFlags := .single 7
def setAccessor : SymbolFlags := .single 8
def typeAlias : SymbolFlags := .single 9
def optional : SymbolFlags := .single 10
end SymbolFlags

namespace ModifierFlags
def readonly : ModifierFlags := .single 6
end ModifierFlags

end TypeBundle
