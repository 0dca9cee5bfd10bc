import TypeBundle.Flags.Text
import TypeBundle.Snapshot.Basic
import TypeBundle.Yaml.Node
import TypeBundle.Yaml.Write
/-!
# Snapshots as documents

A snapshot is written with its fields in a fixed order; empty lists, empty flags of object types and
missing values are left out, except where the format says otherwise. Any document can be read, in any
order of fields, as long as no field that is known is repeated. JSON may leave out the names of the
fields and list the values in the order in which they are written.
-/

namespace TypeBundle

/-! ## Writing -/

namespace Snapshot

def typeWord (id : TypeId) : Outline := .word id.val

def symbolWord (id : SymbolId) : Outline := .word id.val

def typeList? (ids : List TypeId) : Option Outline := Outline.nonEmpty? (ids.map (·.val))

def symbolList (ids : List SymbolId) : Outline := .list (ids.map symbolWord)

def signatureList? (ids : List SignatureId) : Option Outline := Outline.nonEmpty? (ids.map (·.val))

def outlineDeclaration (d : Declaration) : Outline :=
  .object [("file", .string d.file), ("modifiers", .string d.modifiers.text)]

def outlineType (e : TypeEntry) : Outline :=
  let t := e.facts
  .objectOf [
    ("id", some (typeWord e.id)),
    ("flags", some (.string t.flags.text)),
    ("objectFlags", if t.objectFlags.isEmpty then none else some (.string t.objectFlags.text)),
    ("literal", t.literal?.map .literal),
    ("symbol", t.symbol?.map symbolWord),
    ("aliasSymbol", t.alias?.map symbolWord),
    ("aliasTypeArguments", typeList? t.aliasArguments),
    ("target", t.target?.map typeWord),
    ("typeArguments", typeList? t.typeArguments),
    ("typeParameters", typeList? t.typeParameters),
    ("types", typeList? t.constituents),
    ("indexOperand", t.keyOperand?.map typeWord),
    ("objectType", t.accessObject?.map typeWord),
    ("indexType", t.accessIndex?.map typeWord),
    ("constraint", t.constraint?.map typeWord),
    ("baseTypes", typeList? t.bases),
    ("callSignatures", signatureList? t.callSignatures),
    ("constructSignatures", signatureList? t.constructSignatures),
    ("declaredProperties", t.declaredMembers?.map symbolList),
    ("properties", if t.members.isEmpty then none else some (symbolList t.members))]

def outlineSymbol (e : SymbolEntry) : Outline :=
  let s := e.facts
  .objectOf [
    ("id", some (symbolWord e.id)),
    ("name", some (.string s.name)),
    ("qualifiedName", s.qualifiedName?.map .string),
    ("flags", some (.string s.flags.text)),
    ("declarations",
      if s.declarations.isEmpty then none else some (.list (s.declarations.map outlineDeclaration))),
    ("type", s.type?.map typeWord),
    ("declaredType", s.declaredType?.map typeWord),
    ("aliasTypeParameters", typeList? s.aliasParameters)]

def outlineSignature (e : SignatureEntry) : Outline :=
  .objectOf [
    ("id", some (.word e.id.val)),
    ("typeParameters", typeList? e.facts.typeParameters),
    ("parameters", some (symbolList e.facts.parameters)),
    ("returnType", some (typeWord e.facts.returnType))]

/-- The snapshot as a document. -/
def outline (s : Snapshot) : Outline :=
  .objectOf [
    ("types", some (.list (s.types.map outlineType))),
    ("symbols", some (.list (s.symbols.map outlineSymbol))),
    ("signatures", some (.list (s.signatures.map outlineSignature))),
    ("global", s.global?.map symbolWord),
    ("ambientModules", some (symbolList s.ambientModules))]

/-- The snapshot as JSON. -/
def writeJson (pretty : Bool) (s : Snapshot) : String := s.outline.toJson.write (.ofPretty pretty)

/-- The snapshot as YAML. -/
def writeYaml (s : Snapshot) : String := Yaml.write s.outline

/-! ## Reading -/

section Reading

open Document

variable {ν : Type} [Document ν]

def typeId? (v : ν) : Option TypeId := (word64? v).map TypeId.mk

def symbolId? (v : ν) : Option SymbolId := (word64? v).map SymbolId.mk

def signatureId? (v : ν) : Option SignatureId := (word64? v).map SignatureId.mk

/-- A set of flags by its text. -/
def flags? {w : Vocabulary} (v : ν) : Option (Flags w) :=
  (string? v).bind fun text => (Flags.parse text).toOption

def declaration? (v : ν) : Option Declaration := do
  let fields ← fieldsOf? ["file", "modifiers"] v
  return { file := ← required fields "file" string?
           modifiers := ← defaulted fields "modifiers" .empty flags? }

def typeEntry? (v : ν) : Option TypeEntry := do
  let fields ← fieldsOf? ["id", "flags", "objectFlags", "literal", "symbol", "aliasSymbol",
    "aliasTypeArguments", "target", "typeArguments", "typeParameters", "types", "indexOperand",
    "objectType", "indexType", "constraint", "baseTypes", "callSignatures", "constructSignatures",
    "declaredProperties", "properties"] v
  let types name := defaulted fields name [] (list? typeId?)
  let signatures name := defaulted fields name [] (list? signatureId?)
  let type name := optional fields name typeId?
  let symbol name := optional fields name symbolId?
  return {
    id := ← required fields "id" typeId?
    facts := {
      flags := ← required fields "flags" flags?
      objectFlags := ← defaulted fields "objectFlags" .empty flags?
      literal? := ← optional fields "literal" literal?
      symbol? := ← symbol "symbol"
      alias? := ← symbol "aliasSymbol"
      aliasArguments := ← types "aliasTypeArguments"
      target? := ← type "target"
      typeArguments := ← types "typeArguments"
      typeParameters := ← types "typeParameters"
      constituents := ← types "types"
      keyOperand? := ← type "indexOperand"
      accessObject? := ← type "objectType"
      accessIndex? := ← type "indexType"
      constraint? := ← type "constraint"
      bases := ← types "baseTypes"
      callSignatures := ← signatures "callSignatures"
      constructSignatures := ← signatures "constructSignatures"
      declaredMembers? := ← optional fields "declaredProperties" (list? symbolId?)
      members := ← defaulted fields "properties" [] (list? symbolId?) } }

def symbolEntry? (v : ν) : Option SymbolEntry := do
  let fields ← fieldsOf? ["id", "name", "qualifiedName", "flags", "declarations", "type",
    "declaredType", "aliasTypeParameters"] v
  return {
    id := ← required fields "id" symbolId?
    facts := {
      name := ← required fields "name" string?
      qualifiedName? := ← optional fields "qualifiedName" string?
      flags := ← defaulted fields "flags" .empty flags?
      declarations := ← defaulted fields "declarations" [] (list? declaration?)
      type? := ← optional fields "type" typeId?
      declaredType? := ← optional fields "declaredType" typeId?
      aliasParameters := ← defaulted fields "aliasTypeParameters" [] (list? typeId?) } }

def signatureEntry? (v : ν) : Option SignatureEntry := do
  let fields ← fieldsOf? ["id", "typeParameters", "parameters", "returnType"] v
  return {
    id := ← required fields "id" signatureId?
    facts := {
      typeParameters := ← defaulted fields "typeParameters" [] (list? typeId?)
      parameters := ← defaulted fields "parameters" [] (list? symbolId?)
      returnType := ← required fields "returnType" typeId? } }

/-- The snapshot that a document holds. -/
def of? (v : ν) : Option Snapshot := do
  let fields ← fieldsOf? ["types", "symbols", "signatures", "global", "ambientModules"] v
  return {
    types := ← defaulted fields "types" [] (list? typeEntry?)
    symbols := ← defaulted fields "symbols" [] (list? symbolEntry?)
    signatures := ← defaulted fields "signatures" [] (list? signatureEntry?)
    global? := ← optional fields "global" symbolId?
    ambientModules := ← defaulted fields "ambientModules" [] (list? symbolId?) }

end Reading

/-- Reads a snapshot from JSON. -/
def readJson? (text : String) : Option Snapshot := (Json.Tree.read? text).bind of?

/-- Reads a snapshot from YAML. -/
def readYaml? (text : String) : Option Snapshot := (Yaml.Node.read? text).bind of?

end Snapshot

end TypeBundle
