import TypeBundle.Draft.Build
/-!
# Sample snapshots

Small hosts, each with the declarations that a type checker would have seen. Four of them hold
something that a pass refuses.
-/

namespace TypeBundle

/-- The names of the samples. -/
inductive Sample where
  | primitives
  | selfReferential
  | sharedInterface
  | genericContainer
  | tuple
  | aliases
  | aliasOfAlias
  | selfReferentialLiteral
  | nodeLike
  | conditionalType
  | enumType
  | mappedType
  | missingDeclaration
deriving DecidableEq, Repr

namespace Sample

open Draft

def all : List Sample :=
  [primitives, selfReferential, sharedInterface, genericContainer, tuple, aliases, aliasOfAlias,
   selfReferentialLiteral, nodeLike, conditionalType, enumType, mappedType, missingDeclaration]

/-- The file name of a sample, without its extension. -/
def stem : Sample → String
  | primitives => "primitives"
  | selfReferential => "self_referential"
  | sharedInterface => "shared_interface"
  | genericContainer => "generic_container"
  | tuple => "tuple"
  | aliases => "aliases"
  | aliasOfAlias => "alias_of_alias"
  | selfReferentialLiteral => "self_referential_literal"
  | nodeLike => "node_like"
  | conditionalType => "conditional_type"
  | enumType => "enum_type"
  | mappedType => "mapped_type"
  | missingDeclaration => "missing_declaration"

/-- The sample with this file name. -/
def ofStem? (stem : String) : Option Sample := all.find? (·.stem == stem)

/-- Whether a pass over the sample leaves a bundle. -/
def resolves : Sample → Bool
  | conditionalType | enumType | mappedType | missingDeclaration => false
  | _ => true

/-! ## Drafts -/

/-- Declares variables of the global scope or a module. -/
def declareAll (owner : TypeId) (specs : List (String × TypeId)) : Drafting Unit :=
  specs.forM fun (name, type) => do
    let _ ← member owner { name, type, kind := .variable_ }

/-- Adds a plain data member. -/
def data (owner : TypeId) (name : String) (type : TypeId) : Drafting Unit := do
  let _ ← member owner { name, type }

/-- Adds a method. -/
def method (owner : TypeId) (name : String) (type : TypeId) : Drafting Unit := do
  let _ ← member owner { name, type, kind := .method }

/-- Variables of every primitive type, of a union and of literal types. -/
def draftPrimitives : Drafting Unit := do
  let g ← global
  let string ← intrinsic TypeFlags.string
  let number ← intrinsic TypeFlags.number
  let boolean ← boolean
  let undefined ← intrinsic TypeFlags.undefined
  let null ← intrinsic TypeFlags.null
  let never ← intrinsic TypeFlags.never
  let symbol ← intrinsic TypeFlags.uniqueEsSymbol
  let object ← intrinsic TypeFlags.nonPrimitive
  let any ← intrinsic TypeFlags.any
  let mixed ← union [string, number, boolean]
  let foo ← stringLiteral "foo"
  let answer ← numberLiteral (Binary64.ofInt 42)
  let half ← numberLiteral (Binary64.nearest false 1 2)
  let yes ← booleanLiteral true
  declareAll g [("s", string), ("n", number), ("flag", boolean), ("u", undefined), ("nothing", null),
    ("never", never), ("sym", symbol), ("obj", object), ("anything", any), ("mixed", mixed),
    ("foo", foo), ("answer", answer), ("half", half), ("yes", yes)]

/-- An interface with a member of its own type. -/
def draftSelfReferential : Drafting Unit := do
  let g ← global
  let a ← interface "A"
  data a "self" a
  declareAll g [("a", a)]

/-- Two variables of one interface, and one of its intersection with another. -/
def draftSharedInterface : Drafting Unit := do
  let g ← global
  let number ← intrinsic TypeFlags.number
  let string ← intrinsic TypeFlags.string
  let point ← interface "Point"
  let _ ← member point { name := "x", type := number, readonly := true }
  data point "y" number
  let named ← interface "Named"
  data named "label" string
  let marker ← intersection [named, point]
  declareAll g [("start", point), ("end", point), ("marker", marker)]

/-- A generic interface whose method has a type parameter of its own, and instantiations of it. -/
def draftGenericContainer : Drafting Unit := do
  let g ← global
  let string ← intrinsic TypeFlags.string
  let number ← intrinsic TypeFlags.number
  let (container, ps) ← genericInterface "Container" ["T"]
  let t := ps.headD default
  data container "value" t
  let u ← typeParameter "U"
  let mapper ← function [{ name := "value", type := t }] u
  let mapped ← instantiate container [u]
  let sig ← signature [u] [{ name := "f", type := mapper }] mapped
  let map ← objectLiteral
  callSignature map sig
  method container "map" map
  let strings ← instantiate container [string]
  let numbers ← instantiate container [number]
  let nested ← instantiate container [strings]
  declareAll g [("strings", strings), ("numbers", numbers), ("nested", nested)]

/-- A pair. -/
def draftTuple : Drafting Unit := do
  let g ← global
  let string ← intrinsic TypeFlags.string
  let number ← intrinsic TypeFlags.number
  let pair ← Draft.tuple [string, number]
  declareAll g [("pair", pair)]

/-- Aliases of a tuple with a parameter, of a function, of a literal that contains itself, and of a
primitive. -/
def draftAliases : Drafting Unit := do
  let g ← global
  let string ← intrinsic TypeFlags.string
  let number ← intrinsic TypeFlags.number
  let void ← intrinsic TypeFlags.void
  let undefined ← intrinsic TypeFlags.undefined
  let (pair, ps) ← typeAlias "Pair" ["T"]
  let t := ps.headD default
  aliasBody pair (← Draft.tuple [t, t])
  let (callback, _) ← typeAlias "Callback" []
  let error ← union [string, undefined]
  aliasBody callback (← function [{ name := "error", type := error }] void)
  let (tree, _) ← typeAlias "Tree" []
  let body ← objectLiteral
  aliasBody tree body
  data body "value" number
  let _ ← member body { name := "left", type := body, optional := true }
  let _ ← member body { name := "right", type := body, optional := true }
  let (id, _) ← typeAlias "Id" []
  aliasBody id (← intrinsic TypeFlags.string)
  let names ← aliasInstance pair [string]
  let points ← aliasInstance pair [number]
  let done ← aliasInstance callback []
  let onError ← aliasInstance callback []
  let treeValue ← aliasInstance tree []
  let key ← aliasInstance id []
  declareAll g [("names", names), ("points", points), ("done", done), ("onError", onError),
    ("tree", treeValue), ("key", key)]

/-- Aliases of aliases, with and without a parameter. The body of the first keeps the alias by which it
is written. -/
def draftAliasOfAlias : Drafting Unit := do
  let g ← global
  let string ← intrinsic TypeFlags.string
  let number ← intrinsic TypeFlags.number
  let (shape, _) ← typeAlias "Shape" []
  let shapeBody ← objectLiteral
  aliasBody shape shapeBody
  data shapeBody "x" string
  let (figure, _) ← typeAlias "Figure" []
  aliasTarget figure shapeBody
  let (boxed, boxedParameters) ← typeAlias "Boxed" ["T"]
  let boxedBody ← objectLiteral
  aliasBody boxed boxedBody
  data boxedBody "value" (boxedParameters.headD default)
  let (crate, crateParameters) ← typeAlias "Crate" ["T"]
  aliasTarget crate (← aliasInstance boxed [crateParameters.headD default])
  let figureValue ← aliasInstance figure []
  let shapeValue ← aliasInstance shape []
  let crateValue ← aliasInstance crate [number]
  declareAll g [("figure", figureValue), ("shape", shapeValue), ("crate", crateValue)]

/-- An object literal that contains itself and is reached by two variables. -/
def draftSelfReferentialLiteral : Drafting Unit := do
  let g ← global
  let string ← intrinsic TypeFlags.string
  let body ← objectLiteral
  data body "label" string
  data body "self" body
  declareAll g [("first", body), ("second", body)]

/-- A slice of a larger environment: namespaces, classes with a base and merged declarations, ambient
modules, and types that are computed from keys. -/
def draftNodeLike : Drafting Unit := do
  inFile "globals.d.ts"
  let g ← global
  let string ← intrinsic TypeFlags.string
  let number ← intrinsic TypeFlags.number
  let boolean ← boolean
  let any ← intrinsic TypeFlags.any
  let undefined ← intrinsic TypeFlags.undefined
  let process ← interface "NodeJS.Process"
  let env ← interface "NodeJS.Env"
  let _ ← member process { name := "pid", type := number, readonly := true }
  data process "env" env
  method process "cwd" (← function [] string)
  let maybeString ← union [string, undefined]
  let _ ← member env { name := "PATH", type := maybeString, optional := true }
  declareAll g [("process", process), ("globalThis", g)]
  inFile "events.d.ts"
  let emitter ← class_ "EventEmitter"
  constructSignature emitter (← signature [] [] emitter)
  let listener ← function [] any
  method emitter "on"
    (← function [{ name := "event", type := string }, { name := "listener", type := listener }] emitter)
  inFile "stream.d.ts"
  let readable ← class_ "Readable"
  extend readable emitter
  let _ ← member readable { name := "readable", type := boolean, readonly := true }
  method readable "read" (← function [{ name := "size", type := number, optional := true }] any)
  let readableSymbol := (← symbolOf readable).getD default
  inFile "stream/web.d.ts"
  redeclare readableSymbol
  inFile "stream.d.ts"
  redeclare readableSymbol
  inFile "fs.d.ts"
  let fs ← ambientModule "fs"
  let stats ← interface "\"fs\".Stats"
  data stats "size" number
  method stats "isFile" (← function [] boolean)
  let statSync ← function [{ name := "path", type := string }] stats
  declareAll fs [("statSync", statSync)]
  let createReadStream ← function [{ name := "path", type := string }] readable
  declareAll fs [("createReadStream", createReadStream)]
  inFile "path.d.ts"
  let path ← ambientModule "path"
  let (array, _) ← genericInterface "Array" ["T"]
  let stringArray ← instantiate array [string]
  let join ← function [{ name := "paths", type := stringArray }] string
  declareAll path [("join", join)]
  let slash ← stringLiteral "/"
  let backslash ← stringLiteral "\\"
  let sep ← union [slash, backslash]
  let _ ← member path { name := "sep", type := sep, kind := .variable_, readonly := true }
  inFile "globals.d.ts"
  let keys ← keyOf stats
  let sizeKey ← stringLiteral "size"
  let size ← indexedAccess stats sizeKey
  constrain size number
  declareAll g [("statsKeys", keys), ("statsSize", size)]

/-- A variable of a conditional type. -/
def draftConditionalType : Drafting Unit := do
  let g ← global
  declareAll g [("picked", ← intrinsic TypeFlags.conditional)]

/-- A variable of an enum type. -/
def draftEnumType : Drafting Unit := do
  let g ← global
  declareAll g [("direction", ← enumeration "Direction" [Binary64.ofInt 0, Binary64.ofInt 1])]

/-- A variable of a mapped type. -/
def draftMappedType : Drafting Unit := do
  let g ← global
  declareAll g [("partial", ← raw TypeFlags.object ObjectFlags.mapped)]

/-- A data member without a place of declaration. -/
def draftMissingDeclaration : Drafting Unit := do
  let g ← global
  let string ← intrinsic TypeFlags.string
  let ghost ← interface "Ghost"
  let _ ← member ghost { name := "name", type := string, declared := false }
  declareAll g [("ghost", ghost)]

/-- The draft of a sample. -/
def draft : Sample → Drafting Unit
  | primitives => draftPrimitives
  | selfReferential => draftSelfReferential
  | sharedInterface => draftSharedInterface
  | genericContainer => draftGenericContainer
  | tuple => draftTuple
  | aliases => draftAliases
  | aliasOfAlias => draftAliasOfAlias
  | selfReferentialLiteral => draftSelfReferentialLiteral
  | nodeLike => draftNodeLike
  | conditionalType => draftConditionalType
  | enumType => draftEnumType
  | mappedType => draftMappedType
  | missingDeclaration => draftMissingDeclaration

/-- The snapshot of a sample. -/
def snapshot? (s : Sample) : Option Snapshot :=
  (s.draft.run .empty).bind fun (_, d) => d.snapshot?

end Sample

end TypeBundle
