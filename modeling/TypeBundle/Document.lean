import TypeBundle.Json.Tree
/-!
# Documents

What the readers of snapshots and bundles ask of a document, whatever its format: the fields of an
object, the items of a list, whether there is a value at all, and the scalars. Fields that nobody asks
for are ignored; a field that is asked for must not be repeated. Where a format allows it, a structure
is also read from a list of its values alone, in the order in which its fields are declared.
-/

namespace TypeBundle

/-- A scalar that a literal type may carry. -/
inductive Literal where
  | boolean (value : Bool)
  | number (value : Binary64)
  | string (value : String)
deriving DecidableEq, Repr

/-- A format whose values can be read. -/
class Document (ν : Type) where
  /-- The fields of an object. -/
  fields? : ν → Option (List (String × ν))
  /-- The items of a list. -/
  items? : ν → Option (List ν)
  /-- The values of a structure that leaves out the names of its fields. -/
  unnamed? : ν → Option (List ν)
  /-- Whether the value stands for no value. -/
  isNull : ν → Bool
  /-- The natural number that an integer is. -/
  nat? : ν → Option Nat
  bool? : ν → Option Bool
  string? : ν → Option String
  literal? : ν → Option Literal

namespace Document

variable {ν α : Type}

/-- The value of a field, if there is one; a repeated field is refused. -/
def lookup? (fields : List (String × ν)) (name : String) : Option (Option ν) :=
  match fields.filter (·.1 == name) with
  | [] => some none
  | [(_, v)] => some (some v)
  | _ => none

/-- A field that must be there. -/
def required (fields : List (String × ν)) (name : String) (read : ν → Option α) : Option α :=
  match lookup? fields name with
  | some (some v) => read v
  | _ => none

/-- A field with a default. -/
def defaulted (fields : List (String × ν)) (name : String) (default : α) (read : ν → Option α) :
    Option α :=
  match lookup? fields name with
  | some (some v) => read v
  | some none => some default
  | none => none

/-- A field that may be missing, or hold no value. -/
def optional [Document ν] (fields : List (String × ν)) (name : String) (read : ν → Option α) :
    Option (Option α) :=
  match lookup? fields name with
  | some (some v) => if isNull v then some none else (read v).map some
  | some none => some none
  | none => none

/-- The fields of a structure that declares `names`, in this order. Values without names are as many
as there are names, or fewer if the last fields may be missing. -/
def fieldsOf? [Document ν] (names : List String) (v : ν) : Option (List (String × ν)) :=
  match fields? v with
  | some fields => some fields
  | none => (unnamed? v).bind fun vs =>
    if vs.length ≤ names.length then some (names.zip vs) else none

/-- A name that stands for itself: a string, or the only field of an object, if that has no value. -/
def bareName? [Document ν] (v : ν) : Option String :=
  match string? v with
  | some name => some name
  | none =>
    match fields? v with
    | some [(name, v)] => if isNull v then some name else none
    | _ => none

/-- A list of values that are read alike. -/
def list? [Document ν] (read : ν → Option α) (v : ν) : Option (List α) :=
  (items? v).bind fun vs => vs.mapM read

/-- A 64-bit word. -/
def word64? [Document ν] (v : ν) : Option UInt64 :=
  (nat? v).bind fun n => if n < 0x10000000000000000 then some n.toUInt64 else none

/-- A 32-bit word. -/
def word32? [Document ν] (v : ν) : Option UInt32 :=
  (nat? v).bind fun n => if n < 0x100000000 then some n.toUInt32 else none

end Document

namespace Json

instance : Document Value where
  fields?
    | .object fields => some fields
    | _ => none
  items?
    | .array items => some items
    | _ => none
  unnamed?
    | .array items => some items
    | _ => none
  isNull
    | .null => true
    | _ => false
  nat?
    | .number n => n.toNat?
    | _ => none
  bool?
    | .bool b => some b
    | _ => none
  string?
    | .string s => some s
    | _ => none
  literal?
    | .bool b => some (.boolean b)
    | .number n => some (.number n.toFloat)
    | .string s => some (.string s)
    | _ => none

/-- An object has fields only if all their names can be read. -/
instance : Document Tree where
  fields?
    | .object fields => fields.mapM fun (name?, t) => name?.map (·, t)
    | _ => none
  items?
    | .array items => some items
    | _ => none
  unnamed?
    | .array items => some items
    | _ => none
  isNull
    | .null => true
    | _ => false
  nat?
    | .number t => t.value?.bind Number.toNat?
    | _ => none
  bool?
    | .bool b => some b
    | _ => none
  string?
    | .string text? => text?
    | _ => none
  literal?
    | .bool b => some (.boolean b)
    | .number t => t.value?.map fun n => .number n.toFloat
    | .string text? => text?.map .string
    | _ => none

end Json

end TypeBundle
