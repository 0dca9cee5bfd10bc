import TypeBundle.Bundle.Basic
/-!
# Bundles as JSON

A bundle is written with its fields in a fixed order, leaving out the optional ones that have no
value. Arrays and objects of a text that is read may nest 127 deep, where fields that are ignored do
not count; any of these objects may be a list of its values alone, in the same order.
-/

namespace TypeBundle

open Json (Value Tree)

/-- How deep the arrays and objects of a text may nest. -/
def nestingLimit : Nat := 127

/-! ## Writing -/

namespace Record

/-- A list of declarations of type parameters. -/
def encodeGenerics (gs : List (Generic TypeExpr)) : Value := .array (TypeExpr.encodeGenerics gs)

def encode (r : Record) : Value :=
  .objectOf [
    ("id", some (TypeExpr.encodeId r.id)),
    ("name", r.name?.map .string),
    ("qualifiedName", r.qualifiedName?.map .string),
    ("originFiles", r.originFiles?.map fun files => .array (files.map .string)),
    ("isAlias", some (.bool r.isAlias)),
    ("aliasTypeParameters", r.aliasTypeParameters?.map encodeGenerics),
    ("typeParameters", r.typeParameters?.map encodeGenerics),
    ("body", some r.body.encode)]

end Record

def AmbientModule.encode (m : AmbientModule) : Value :=
  .object [("name", .string m.name), ("type", m.type.encode)]

namespace Bundle

def encode (b : Bundle) : Value :=
  .object [
    ("globalType", b.globalType.encode),
    ("ambientModules", .array (b.ambientModules.map (·.encode))),
    ("types", .array (b.records.map (·.encode)))]

/-- Bundles are compared by what is written of them. -/
instance : BEq Bundle := ⟨fun a b => a.encode == b.encode⟩

/-- The text of a bundle. -/
def write (pretty : Bool) (b : Bundle) : String := b.encode.write (.ofPretty pretty)

end Bundle

/-! ## Reading -/

open Document

/-- A record of a document in which arrays and objects may nest `limit` deep; `expr` reads its
expressions. The record is one level, a list of parameters the second and a parameter the third. -/
def Record.of? {ν : Type} [Document ν] (expr : Nat → ν → Option TypeExpr) (limit : Nat) (v : ν) :
    Option Record := do
  let generics := list? (TypeExpr.generic? (expr (limit - 3)))
  let fields ← fieldsOf? ["id", "name", "qualifiedName", "originFiles", "isAlias",
    "aliasTypeParameters", "typeParameters", "body"] v
  return { id := ← required fields "id" TypeExpr.id?
           name? := ← optional fields "name" string?
           qualifiedName? := ← optional fields "qualifiedName" string?
           originFiles? := ← optional fields "originFiles" (list? string?)
           isAlias := ← required fields "isAlias" bool?
           aliasTypeParameters? := ← optional fields "aliasTypeParameters" generics
           typeParameters? := ← optional fields "typeParameters" generics
           body := ← required fields "body" (expr (limit - 1)) }

/-- A record that is a value by itself. -/
def Record.ofValue? (v : Value) : Option Record := Record.of? TypeExpr.decode? nestingLimit v

def AmbientModule.ofTree? (limit : Nat) (t : Tree) : Option AmbientModule := do
  let fields ← fieldsOf? ["name", "type"] t
  return { name := ← required fields "name" string?
           type := ← required fields "type" (TypeExpr.ofTree? (limit - 1)) }

namespace Bundle

def ofTree? (limit : Nat) (t : Tree) : Option Bundle := do
  let fields ← fieldsOf? ["globalType", "ambientModules", "types"] t
  return { globalType := ← required fields "globalType" (TypeExpr.ofTree? (limit - 1))
           ambientModules :=
             ← required fields "ambientModules" (list? (AmbientModule.ofTree? (limit - 2)))
           records := ← required fields "types" (list? (Record.of? TypeExpr.ofTree? (limit - 2))) }

/-- Reads the text of a bundle. -/
def read? (text : String) : Option Bundle := (Tree.read? text).bind (ofTree? nestingLimit)

end Bundle

end TypeBundle
