import TypeBundle.Snapshot.Basic
import TypeBundle.Text.Blank
/-!
# Drafting snapshots

A draft is a snapshot in the making. Declarations are added one by one, the way a type checker would
report them, and ids are positions. An operation that is given an id that was never handed out where
it must look the entry up has no result.
-/

namespace TypeBundle

/-- A snapshot in the making. -/
structure Draft where
  types : Array HostType
  symbols : Array HostSymbol
  signatures : Array HostSignature
  global? : Option SymbolId
  globalType? : Option TypeId
  ambientModules : Array SymbolId
  /-- The file of the declarations that follow. -/
  file : String

/-- A step of drafting. -/
abbrev Drafting (α : Type) := StateT Draft Option α

/-- How a member is declared. -/
inductive MemberKind where
  | data
  | method
  | getter
  | variable_
deriving DecidableEq, Repr

/-- A member to add to an object type. -/
structure MemberSpec where
  name : String
  type : TypeId
  kind : MemberKind := .data
  optional : Bool := false
  readonly : Bool := false
  /-- Whether the member has a place of declaration; hosts drop it for some members they make up. -/
  declared : Bool := true
deriving DecidableEq, Repr

/-- A parameter of a signature to add. -/
structure ParameterSpec where
  name : String
  type : TypeId
  optional : Bool := false
deriving DecidableEq, Repr

def MemberKind.flags : MemberKind → SymbolFlags
  | data => SymbolFlags.property
  | method => SymbolFlags.method
  | getter => SymbolFlags.getAccessor
  | variable_ => SymbolFlags.variable_

/-- The flag for what is optional. -/
def optionalFlag (optional : Bool) : SymbolFlags := if optional then SymbolFlags.optional else .empty

namespace Draft

/-- The draft without entries. -/
def empty : Draft := ⟨#[], #[], #[], none, none, #[], "lib.d.ts"⟩

instance : Inhabited Draft := ⟨empty⟩

def type? (d : Draft) (id : TypeId) : Option HostType := d.types[id.val.toNat]?

def symbol? (d : Draft) (id : SymbolId) : Option HostSymbol := d.symbols[id.val.toNat]?

/-! ## Entries -/

def addType (t : HostType) : Drafting TypeId :=
  modifyGet fun d => (⟨d.types.size.toUInt64⟩, { d with types := d.types.push t })

def addSymbol (s : HostSymbol) : Drafting SymbolId :=
  modifyGet fun d => (⟨d.symbols.size.toUInt64⟩, { d with symbols := d.symbols.push s })

def addSignature (s : HostSignature) : Drafting SignatureId :=
  modifyGet fun d => (⟨d.signatures.size.toUInt64⟩, { d with signatures := d.signatures.push s })

/-- The entry of a type. -/
def typeEntry (id : TypeId) : Drafting HostType := fun d => (d.type? id).map (·, d)

/-- The entry of a symbol. -/
def symbolEntry (id : SymbolId) : Drafting HostSymbol := fun d => (d.symbol? id).map (·, d)

/-- Changes the entry of a type. -/
def changeType (id : TypeId) (change : HostType → HostType) : Drafting Unit := fun d =>
  if id.val.toNat < d.types.size then some ((), { d with types := d.types.modify id.val.toNat change })
  else none

/-- Changes the entry of a symbol. -/
def changeSymbol (id : SymbolId) (change : HostSymbol → HostSymbol) : Drafting Unit := fun d =>
  if id.val.toNat < d.symbols.size then
    some ((), { d with symbols := d.symbols.modify id.val.toNat change })
  else none

/-! ## Symbols -/

/-- Declarations from here on are in this file. -/
def inFile (file : String) : Drafting Unit := modify fun d => { d with file }

/-- A declaration in the current file. -/
def declarationHere : Drafting Declaration := return ⟨(← get).file, .empty⟩

/-- The last segment of a dotted name. -/
def lastSegment (qualified : String) : String :=
  match Text.cutLast? '.' qualified.toList with
  | some (_, name) => String.ofList name
  | none => qualified

/-- A symbol that is declared once in the current file. Its name is the last segment of the dotted name
that is given. -/
def symbol (qualified : String) (flags : SymbolFlags) : Drafting SymbolId := do
  let name := lastSegment qualified
  addSymbol {
    name
    qualifiedName? := if name = qualified then none else some qualified
    flags
    declarations := [← declarationHere] }

/-- Declares a symbol once more in the current file. -/
def redeclare (id : SymbolId) : Drafting Unit := do
  let here ← declarationHere
  changeSymbol id fun s => { s with declarations := s.declarations ++ [here] }

/-- The symbol that names a type. -/
def symbolOf (id : TypeId) : Drafting (Option SymbolId) := return (← typeEntry id).symbol?

/-! ## Types -/

/-- A type of which only the flags are known. -/
def raw (flags : TypeFlags) (objectFlags : ObjectFlags) : Drafting TypeId :=
  addType { flags, objectFlags }

def intrinsic (flags : TypeFlags) : Drafting TypeId := raw flags .empty

/-- The type `boolean`, which hosts report as the union of its literals. -/
def boolean : Drafting TypeId := intrinsic (TypeFlags.boolean ||| TypeFlags.union)

/-- A literal type. -/
def literal (flags : TypeFlags) (value : Literal) : Drafting TypeId :=
  addType { flags, literal? := some value }

def stringLiteral (value : String) : Drafting TypeId := literal TypeFlags.stringLiteral (.string value)

def numberLiteral (value : Binary64) : Drafting TypeId :=
  literal TypeFlags.numberLiteral (.number value)

def booleanLiteral (value : Bool) : Drafting TypeId :=
  literal TypeFlags.booleanLiteral (.boolean value)

/-- A class or interface without members. -/
def nominal (qualified : String) (symbolFlags : SymbolFlags) (objectFlags : ObjectFlags) :
    Drafting TypeId := do
  let s ← symbol qualified symbolFlags
  let id ← addType {
    flags := TypeFlags.object
    objectFlags
    symbol? := some s
    declaredMembers? := some [] }
  changeSymbol s fun e => { e with declaredType? := some id }
  return id

def interface (qualified : String) : Drafting TypeId :=
  nominal qualified SymbolFlags.interface ObjectFlags.interface

def class_ (qualified : String) : Drafting TypeId :=
  nominal qualified SymbolFlags.class_ ObjectFlags.class_

def typeParameter (name : String) : Drafting TypeId := do
  let s ← symbol name .empty
  addType { flags := TypeFlags.typeParameter, symbol? := some s }

/-- Gives a class or interface type parameters. Its declared type is then an instantiation of itself
with its own parameters. -/
def makeGeneric (id : TypeId) (parameters : List String) : Drafting (TypeId × List TypeId) := do
  let ps ← parameters.mapM typeParameter
  changeType id fun t => { t with
    objectFlags := t.objectFlags ||| ObjectFlags.reference
    target? := some id
    typeArguments := ps
    typeParameters := ps }
  return (id, ps)

def genericInterface (qualified : String) (parameters : List String) :
    Drafting (TypeId × List TypeId) := do
  makeGeneric (← interface qualified) parameters

def genericClass (qualified : String) (parameters : List String) :
    Drafting (TypeId × List TypeId) := do
  makeGeneric (← class_ qualified) parameters

/-- Sets the constraint of a type parameter or an indexed access. -/
def constrain (id constraint : TypeId) : Drafting Unit :=
  changeType id fun t => { t with constraint? := some constraint }

/-- A generic type with arguments. -/
def instantiate (target : TypeId) (arguments : List TypeId) : Drafting TypeId := do
  let t ← typeEntry target
  addType {
    flags := TypeFlags.object
    objectFlags :=
      (t.objectFlags &&& (ObjectFlags.class_ ||| ObjectFlags.interface)) ||| ObjectFlags.reference
    symbol? := t.symbol?
    target? := some target
    typeArguments := arguments }

def tuple (elements : List TypeId) : Drafting TypeId := do
  let target ← raw TypeFlags.object ObjectFlags.tuple
  addType {
    flags := TypeFlags.object
    objectFlags := ObjectFlags.reference
    target? := some target
    typeArguments := elements }

/-- An object literal type with a symbol of its own. -/
def objectLiteral : Drafting TypeId := do
  let s ← symbol "__type" .empty
  addType { flags := TypeFlags.object, objectFlags := ObjectFlags.anonymous, symbol? := some s }

def union (members : List TypeId) : Drafting TypeId :=
  addType { flags := TypeFlags.union, constituents := members }

def intersection (members : List TypeId) : Drafting TypeId :=
  addType { flags := TypeFlags.intersection, constituents := members }

def keyOf (operand : TypeId) : Drafting TypeId :=
  addType { flags := TypeFlags.index, keyOperand? := some operand }

def indexedAccess (object index : TypeId) : Drafting TypeId :=
  addType { flags := TypeFlags.indexedAccess, accessObject? := some object, accessIndex? := some index }

/-- An enum: a named union of numeric literals. -/
def enumeration (qualified : String) (values : List Binary64) : Drafting TypeId := do
  let s ← symbol qualified .empty
  let literals ← values.mapM fun x =>
    literal (TypeFlags.numberLiteral ||| TypeFlags.enumLiteral) (.number x)
  addType {
    flags := TypeFlags.union ||| TypeFlags.enum
    symbol? := some s
    constituents := literals }

/-- Adds a base to a class or interface. -/
def extend (id base : TypeId) : Drafting Unit :=
  changeType id fun t => { t with bases := t.bases ++ [base] }

/-! ## Members and signatures -/

/-- The places where a member is declared. -/
def memberDeclarations (spec : MemberSpec) (here : Declaration) : List Declaration :=
  if spec.declared then [{ here with modifiers := if spec.readonly then ModifierFlags.readonly else .empty }]
  else []

/-- Adds a member to an object type. -/
def member (owner : TypeId) (spec : MemberSpec) : Drafting SymbolId := do
  let here ← declarationHere
  let s ← symbol spec.name (spec.kind.flags ||| optionalFlag spec.optional)
  changeSymbol s fun e => { e with
    type? := some spec.type
    declarations := memberDeclarations spec here }
  changeType owner fun t => { t with
    declaredMembers? := t.declaredMembers?.map (· ++ [s])
    members := t.members ++ [s] }
  return s

/-- The symbol of a parameter. -/
def parameter (spec : ParameterSpec) : Drafting SymbolId := do
  let s ← symbol spec.name (SymbolFlags.variable_ ||| optionalFlag spec.optional)
  changeSymbol s fun e => { e with type? := some spec.type }
  return s

def signature (typeParameters : List TypeId) (parameters : List ParameterSpec) (returnType : TypeId) :
    Drafting SignatureId := do
  let ps ← parameters.mapM parameter
  addSignature ⟨typeParameters, ps, returnType⟩

def callSignature (owner : TypeId) (s : SignatureId) : Drafting Unit :=
  changeType owner fun t => { t with callSignatures := t.callSignatures ++ [s] }

def constructSignature (owner : TypeId) (s : SignatureId) : Drafting Unit :=
  changeType owner fun t => { t with constructSignatures := t.constructSignatures ++ [s] }

/-- The type of a function: an object literal with a call signature. -/
def function (parameters : List ParameterSpec) (returnType : TypeId) : Drafting TypeId := do
  let id ← objectLiteral
  callSignature id (← signature [] parameters returnType)
  return id

/-! ## Aliases -/

/-- Declares an alias; what it stands for is set later. -/
def typeAlias (qualified : String) (parameters : List String) :
    Drafting (SymbolId × List TypeId) := do
  let s ← symbol qualified SymbolFlags.typeAlias
  let ps ← parameters.mapM typeParameter
  changeSymbol s fun e => { e with aliasParameters := ps }
  return (s, ps)

/-- Makes a type the body of an alias, so that it is written by the alias. -/
def aliasBody (alias_ : SymbolId) (body : TypeId) : Drafting Unit := do
  let ps := (← symbolEntry alias_).aliasParameters
  changeSymbol alias_ fun e => { e with declaredType? := some body }
  changeType body fun t => { t with alias? := some alias_, aliasArguments := ps }

/-- Makes an alias stand for a type that is written by another alias. -/
def aliasTarget (alias_ : SymbolId) (id : TypeId) : Drafting Unit :=
  changeSymbol alias_ fun e => { e with declaredType? := some id }

/-- An occurrence of an alias with arguments: a copy of its body, or of an empty object if it has
none. -/
def aliasInstance (alias_ : SymbolId) (arguments : List TypeId) : Drafting TypeId := do
  let body ← match (← symbolEntry alias_).declaredType? with
    | some id => typeEntry id
    | none => pure { flags := TypeFlags.object, objectFlags := ObjectFlags.anonymous }
  addType { body with alias? := some alias_, aliasArguments := arguments }

/-! ## Scopes -/

/-- A symbol with an object type of its own, as scopes have. -/
def scope (name : String) : Drafting (SymbolId × TypeId) := do
  let s ← symbol name SymbolFlags.module
  let id ← addType {
    flags := TypeFlags.object
    objectFlags := ObjectFlags.anonymous
    symbol? := some s }
  changeSymbol s fun e => { e with type? := some id }
  return (s, id)

/-- The global scope, made when it is asked for first. -/
def global : Drafting TypeId := do
  match (← get).globalType? with
  | some id => return id
  | none =>
    let (s, id) ← scope "global"
    modify fun d => { d with global? := some s, globalType? := some id }
    return id

/-- An ambient module, named in quotes. -/
def ambientModule (name : String) : Drafting TypeId := do
  let (s, id) ← scope ("\"" ++ name ++ "\"")
  modify fun d => { d with ambientModules := d.ambientModules.push s }
  return id

end Draft

end TypeBundle
