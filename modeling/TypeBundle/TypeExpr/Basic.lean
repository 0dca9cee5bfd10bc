import TypeBundle.Document
/-!
# Type expressions of a bundle

A type expression names a record of the bundle by its id, or spells a type out: a primitive, a union,
an object shape, and so on. An application names a record together with type arguments. A parameter
has an id as well, but no record.

Shapes and signatures are written over any type of expressions, since they only hold them.
-/

namespace TypeBundle

/-- The id of a record or a type parameter in a bundle. -/
structure BundleId where
  val : UInt32
deriving DecidableEq, Repr, Inhabited

namespace BundleId

/-- The text of an id in messages. -/
def text (id : BundleId) : String := "#" ++ String.ofList (Text.decimal id.val.toNat)

instance : LT BundleId := ⟨fun a b => a.val < b.val⟩

instance (a b : BundleId) : Decidable (a < b) := inferInstanceAs (Decidable (a.val < b.val))

instance : LE BundleId := ⟨fun a b => a.val ≤ b.val⟩

instance (a b : BundleId) : Decidable (a ≤ b) := inferInstanceAs (Decidable (a.val ≤ b.val))

end BundleId

/-- The primitive types that a bundle knows. -/
inductive PrimitiveKind where
  | any
  | boolean
  | number
  | numberLiteral
  | string
  | stringLiteral
  | undefined
  | null
  | never
  | void
  | symbol
  /-- The type of all values that are not primitive. -/
  | object
deriving DecidableEq, Repr

namespace PrimitiveKind

def all : List PrimitiveKind :=
  [any, boolean, number, numberLiteral, string, stringLiteral, undefined, null, never, void, symbol,
   object]

def name : PrimitiveKind → String
  | any => "any"
  | boolean => "boolean"
  | number => "number"
  | numberLiteral => "number-lit"
  | string => "string"
  | stringLiteral => "string-lit"
  | undefined => "undefined"
  | null => "null"
  | never => "never"
  | void => "void"
  | symbol => "symbol"
  | object => "object"

/-- The kind of this name. -/
def ofName? (name : String) : Option PrimitiveKind := all.find? (·.name == name)

theorem ofName?_name (k : PrimitiveKind) : ofName? k.name = some k := by
  cases k <;> rfl

end PrimitiveKind

/-- The declaration of a type parameter. -/
structure Generic (α : Type) where
  id : BundleId
  constraint? : Option α
deriving DecidableEq

/-- A parameter of a signature. -/
structure Parameter (α : Type) where
  name : String
  type : α
  optional : Bool
deriving DecidableEq

/-- The signature of a function or constructor. -/
structure Signature (α : Type) where
  typeParameters : List (Generic α)
  parameters : List (Parameter α)
  returnType : α
deriving DecidableEq

/-- A member of an object type. -/
structure Member (α : Type) where
  name : String
  type : α
  optional : Bool
  readonly : Bool
deriving DecidableEq

/-- A class, an interface or an object literal. Members stand in ascending order of their names. -/
structure Shape (α : Type) where
  isClass : Bool
  bases : List α
  callSignatures : List (Signature α)
  constructSignatures : List (Signature α)
  members : List (Member α)
deriving DecidableEq

/-- A type expression. -/
inductive TypeExpr where
  /-- The type of a record. -/
  | record (id : BundleId)
  | primitive (kind : PrimitiveKind) (literal? : Option Json.Value)
  | union (members : List TypeExpr)
  | intersection (members : List TypeExpr)
  | keyOf (operand : TypeExpr)
  | indexedAccess (object index : TypeExpr) (constraint? : Option TypeExpr)
  | shape (shape : Shape TypeExpr)
  | tuple (members : List TypeExpr)
  /-- An occurrence of a type parameter. -/
  | parameter (id : BundleId)
  /-- A generic record with type arguments. -/
  | application (target : BundleId) (arguments : List TypeExpr)

/-- Puts a member in its place by name; a member of that name gives way. -/
def Member.insert {α : Type} (m : Member α) : List (Member α) → List (Member α)
  | [] => [m]
  | n :: ns =>
    if m.name < n.name then m :: n :: ns
    else if m.name = n.name then m :: ns
    else n :: Member.insert m ns

namespace TypeExpr

instance : Inhabited TypeExpr := ⟨.primitive .any none⟩

def any : TypeExpr := .primitive .any none

/-- The record that an expression names itself, without or with arguments. -/
def target? : TypeExpr → Option BundleId
  | record id => some id
  | application id _ => some id
  | _ => none

/-- The shape that an expression is. -/
def shape? : TypeExpr → Option (Shape TypeExpr)
  | shape s => some s
  | _ => none

def isPrimitive : TypeExpr → Bool
  | primitive _ _ => true
  | _ => false

/-- The tag of an expression: the id of a record, the name of a primitive, else the word that tells
the other forms apart. -/
def tag : TypeExpr → String
  | record id => id.text
  | primitive kind _ => kind.name
  | union _ => "union"
  | intersection _ => "intersection"
  | keyOf _ => "index"
  | indexedAccess _ _ _ => "index-access"
  | shape _ => "interface"
  | tuple _ => "tuple"
  | parameter _ => "generics-ref"
  | application _ _ => "ref"

/-! ## Subterms -/

mutual
/-- The expression and every expression inside it, each before its parts, the parts in the order in
which they are written. -/
def subterms : TypeExpr → List TypeExpr
  | record id => [record id]
  | primitive kind literal? => [primitive kind literal?]
  | union ms => union ms :: subtermsOfList ms
  | intersection ms => intersection ms :: subtermsOfList ms
  | keyOf operand => keyOf operand :: subterms operand
  | indexedAccess object index constraint? =>
    indexedAccess object index constraint? ::
      (subterms object ++ subterms index ++ subtermsOfOption constraint?)
  | shape s => shape s :: subtermsOfShape s
  | tuple ms => tuple ms :: subtermsOfList ms
  | parameter id => [parameter id]
  | application id args => application id args :: subtermsOfList args

def subtermsOfList : List TypeExpr → List TypeExpr
  | [] => []
  | e :: es => subterms e ++ subtermsOfList es

def subtermsOfOption : Option TypeExpr → List TypeExpr
  | none => []
  | some e => subterms e

def subtermsOfShape : Shape TypeExpr → List TypeExpr
  | ⟨_, bases, calls, constructs, members⟩ =>
    subtermsOfList bases ++ subtermsOfSignatures calls ++ subtermsOfSignatures constructs ++
      subtermsOfMembers members

def subtermsOfSignatures : List (Signature TypeExpr) → List TypeExpr
  | [] => []
  | s :: ss => subtermsOfSignature s ++ subtermsOfSignatures ss

def subtermsOfSignature : Signature TypeExpr → List TypeExpr
  | ⟨generics, parameters, returnType⟩ =>
    subtermsOfGenerics generics ++ subtermsOfParameters parameters ++ subterms returnType

def subtermsOfGenerics : List (Generic TypeExpr) → List TypeExpr
  | [] => []
  | g :: gs => subtermsOfGeneric g ++ subtermsOfGenerics gs

def subtermsOfGeneric : Generic TypeExpr → List TypeExpr
  | ⟨_, constraint?⟩ => subtermsOfOption constraint?

def subtermsOfParameters : List (Parameter TypeExpr) → List TypeExpr
  | [] => []
  | p :: ps => subtermsOfParameter p ++ subtermsOfParameters ps

def subtermsOfParameter : Parameter TypeExpr → List TypeExpr
  | ⟨_, type, _⟩ => subterms type

def subtermsOfMembers : List (Member TypeExpr) → List TypeExpr
  | [] => []
  | m :: ms => subtermsOfMember m ++ subtermsOfMembers ms

def subtermsOfMember : Member TypeExpr → List TypeExpr
  | ⟨_, type, _, _⟩ => subterms type
end

/-- The records that an expression names anywhere, in the order of its subterms. -/
def references (e : TypeExpr) : List BundleId := e.subterms.filterMap target?

theorem mem_subterms_self (e : TypeExpr) : e ∈ e.subterms := by
  cases e <;> simp [subterms]

theorem subtermsOfList_eq (es : List TypeExpr) : subtermsOfList es = es.flatMap subterms := by
  induction es with
  | nil => simp [subtermsOfList]
  | cons e es ih => simp [subtermsOfList, ih]

end TypeExpr

end TypeBundle
