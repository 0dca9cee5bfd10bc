import TypeBundle.TypeExpr.Basic
/-!
# Type expressions as JSON

A record id is an integer, a primitive is an object with a `kind`, and the other forms are objects
with a `type`. Reading tries these in turn: `kind` wins over `type`, fields that do not belong to a
form are ignored, and fields that do must not be repeated. Members may be repeated; the last stays.

More is read than is written. Any object but that of the members may be a list of its values alone, in
the order of its fields; a `type` may be the number of its form, and a `kind` an object with a field
of that name that holds no value.
-/

namespace TypeBundle.TypeExpr

open Json (Value)

/-! ## Writing -/

def encodeId (id : BundleId) : Value := .number (.ofUInt32 id.val)

mutual
def encode : TypeExpr → Value
  | record id => encodeId id
  | primitive kind none => .object [("kind", .string kind.name)]
  | primitive kind (some literal) => .object [("kind", .string kind.name), ("literal", literal)]
  | union ms => .object [("type", .string "union"), ("members", .array (encodeList ms))]
  | intersection ms =>
    .object [("type", .string "intersection"), ("members", .array (encodeList ms))]
  | keyOf operand => .object [("type", .string "index"), ("keyOf", encode operand)]
  | indexedAccess object index constraint? =>
    .object ([("type", .string "index-access"), ("object", encode object), ("index", encode index)] ++
      encodeConstraint constraint?)
  | shape s => .object (("type", .string "interface") :: encodeShape s)
  | tuple ms => .object [("type", .string "tuple"), ("member", .array (encodeList ms))]
  | parameter id => .object [("type", .string "generics-ref"), ("targetId", encodeId id)]
  | application id args =>
    .object [("type", .string "ref"), ("targetId", encodeId id),
      ("typeArguments", .array (encodeList args))]

def encodeList : List TypeExpr → List Value
  | [] => []
  | e :: es => encode e :: encodeList es

def encodeConstraint : Option TypeExpr → List (String × Value)
  | none => []
  | some e => [("constraint", encode e)]

def encodeShape : Shape TypeExpr → List (String × Value)
  | ⟨isClass, bases, calls, constructs, members⟩ =>
    [("isClass", .bool isClass), ("bases", .array (encodeList bases)),
     ("callSignatures", .array (encodeSignatures calls)),
     ("constructionSignatures", .array (encodeSignatures constructs)),
     ("properties", .object (encodeMembers members))]

def encodeSignatures : List (Signature TypeExpr) → List Value
  | [] => []
  | s :: ss => encodeSignature s :: encodeSignatures ss

def encodeSignature : Signature TypeExpr → Value
  | ⟨generics, parameters, returnType⟩ =>
    .object [("typeParameters", .array (encodeGenerics generics)),
      ("parameters", .array (encodeParameters parameters)), ("returnType", encode returnType)]

def encodeGenerics : List (Generic TypeExpr) → List Value
  | [] => []
  | g :: gs => encodeGeneric g :: encodeGenerics gs

def encodeGeneric : Generic TypeExpr → Value
  | ⟨id, constraint?⟩ => .object (("id", encodeId id) :: encodeConstraint constraint?)

def encodeParameters : List (Parameter TypeExpr) → List Value
  | [] => []
  | p :: ps => encodeParameter p :: encodeParameters ps

def encodeParameter : Parameter TypeExpr → Value
  | ⟨name, type, optional⟩ =>
    .object [("name", .string name), ("type", encode type), ("optional", .bool optional)]

def encodeMembers : List (Member TypeExpr) → List (String × Value)
  | [] => []
  | m :: ms => encodeMember m :: encodeMembers ms

def encodeMember : Member TypeExpr → String × Value
  | ⟨name, type, optional, readonly⟩ =>
    (name, .object [("type", encode type), ("optional", .bool optional),
      ("readonly", .bool readonly)])
end

/-! ## Reading -/

open Document

/-- An id as a reader of any document finds it. -/
def id? {ν : Type} [Document ν] (v : ν) : Option BundleId := (word32? v).map BundleId.mk

/-- A primitive with its literal, if it has one. -/
def primitive? (v : Value) : Option TypeExpr := do
  let fields ← fieldsOf? ["kind", "literal"] v
  let kind ← required fields "kind" fun v => (bareName? v).bind PrimitiveKind.ofName?
  let literal? ← optional fields "literal" fun v => some v.canonical
  return primitive kind literal?

/-- The forms that have a `type`, in the order of their numbers. -/
inductive Form where
  | union
  | intersection
  | keyOf
  | indexedAccess
  | shape
  | tuple
  | parameter
  | application
deriving DecidableEq, Repr

namespace Form

def all : List Form :=
  [union, intersection, keyOf, indexedAccess, shape, tuple, parameter, application]

def tag : Form → String
  | union => "union"
  | intersection => "intersection"
  | keyOf => "index"
  | indexedAccess => "index-access"
  | shape => "interface"
  | tuple => "tuple"
  | parameter => "generics-ref"
  | application => "ref"

/-- The fields of a form, after its `type`. -/
def fields : Form → List String
  | union | intersection => ["members"]
  | keyOf => ["keyOf"]
  | indexedAccess => ["object", "index", "constraint"]
  | shape => ["isClass", "bases", "callSignatures", "constructionSignatures", "properties"]
  | tuple => ["member"]
  | parameter => ["targetId"]
  | application => ["targetId", "typeArguments"]

/-- The form that a `type` stands for, by its tag or by its number. -/
def of? {ν : Type} [Document ν] (v : ν) : Option Form :=
  match string? v with
  | some tag => all.find? (·.tag == tag)
  | none => (nat? v).bind fun n => all[n]?

end Form

section Parts

variable {ν : Type} [Document ν] (read : ν → Option TypeExpr)

/-- The declaration of a type parameter. -/
def generic? (v : ν) : Option (Generic TypeExpr) := do
  let fields ← fieldsOf? ["id", "constraint"] v
  return { id := ← required fields "id" id?
           constraint? := ← optional fields "constraint" read }

def parameter? (v : ν) : Option (Parameter TypeExpr) := do
  let fields ← fieldsOf? ["name", "type", "optional"] v
  return { name := ← required fields "name" string?
           type := ← required fields "type" read
           optional := ← required fields "optional" bool? }

def signature? (v : ν) : Option (Signature TypeExpr) := do
  let fields ← fieldsOf? ["typeParameters", "parameters", "returnType"] v
  return { typeParameters := ← required fields "typeParameters" (list? (generic? read))
           parameters := ← required fields "parameters" (list? (parameter? read))
           returnType := ← required fields "returnType" read }

def member? (name : String) (v : ν) : Option (Member TypeExpr) := do
  let fields ← fieldsOf? ["type", "optional", "readonly"] v
  return { name
           type := ← required fields "type" read
           optional := ← required fields "optional" bool?
           readonly := ← required fields "readonly" bool? }

/-- The members of an object, in order of their names. -/
def members? (v : ν) : Option (List (Member TypeExpr)) := do
  let ms ← (← fields? v).mapM fun (name, v) => member? read name v
  return ms.foldl (fun done m => m.insert done) []

/-- A shape from its fields. -/
def shapeOf? (fields : List (String × ν)) : Option (Shape TypeExpr) := do
  return { isClass := ← required fields "isClass" bool?
           bases := ← required fields "bases" (list? read)
           callSignatures := ← required fields "callSignatures" (list? (signature? read))
           constructSignatures := ← required fields "constructionSignatures" (list? (signature? read))
           members := ← required fields "properties" (members? read) }

/-- A form from its fields. -/
def formOf? (form : Form) (fields : List (String × ν)) : Option TypeExpr := do
  match form with
  | .union => return union (← required fields "members" (list? read))
  | .intersection => return intersection (← required fields "members" (list? read))
  | .keyOf => return keyOf (← required fields "keyOf" read)
  | .indexedAccess =>
    return indexedAccess (← required fields "object" read) (← required fields "index" read)
      (← optional fields "constraint" read)
  | .shape => return shape (← shapeOf? read fields)
  | .tuple => return tuple (← required fields "member" (list? read))
  | .parameter => return parameter (← required fields "targetId" id?)
  | .application =>
    return application (← required fields "targetId" id?)
      (← required fields "typeArguments" (list? read))

/-- The `type` of a form, which is the first of values without names. -/
def type? (v : ν) : Option ν :=
  match fields? v with
  | some fields => required fields "type" some
  | none => (unnamed? v).bind List.head?

/-- One of the forms that have a `type`. -/
def tagged? (v : ν) : Option TypeExpr := do
  let form ← (type? v).bind Form.of?
  formOf? read form (← fieldsOf? ("type" :: form.fields) v)

end Parts

/-- Reads an expression in which at most `depth` expressions that are not ids nest. -/
def decode? (depth : Nat) (v : Value) : Option TypeExpr :=
  match id? v with
  | some id => some (record id)
  | none =>
    match depth with
    | 0 => none
    | depth + 1 =>
      match primitive? v with
      | some e => some e
      | none => tagged? (decode? depth) v

/-- Reads an expression whose arrays and objects nest at most `limit` deep. -/
def ofTree? (limit : Nat) (t : Json.Tree) : Option TypeExpr :=
  (t.value? limit).bind (decode? limit)

end TypeBundle.TypeExpr
