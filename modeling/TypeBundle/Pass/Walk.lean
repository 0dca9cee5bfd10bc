import TypeBundle.Host.Kind
import TypeBundle.Pass.Failure
import TypeBundle.Pass.NumberLiteral
import TypeBundle.Pass.RecordTable
import TypeBundle.Pass.Registry
import TypeBundle.Settings
/-!
# Walking a host

A walk turns types of a host into type expressions. What it leaves behind is its progress: the ids
handed out so far and the table of records. A type that is written by an alias becomes a reference to
the record of the alias, generic if it has alias arguments. A class or interface becomes a reference
to its record; an instantiation a reference with arguments, except that tuples are spelled out. An
object literal is spelled out where it is met first; its record lets others, and itself, refer to it.

The rules for one type are written over `resolve`, the walk of the types inside it. `Walk.resolve`
ties the knot: it goes at most a given number of types deep and says so if that is not enough. The
rules know of the progress only what a `Ledger` offers, so that a walk can also keep other books.
-/

namespace TypeBundle

/-- What a walk has done so far. -/
structure Progress where
  registry : Registry
  table : RecordTable
deriving Inhabited

/-- The progress of a walk that has not begun. -/
def Progress.start : Progress := ⟨.empty, .empty⟩

/-- Why a walk stops. -/
inductive Stop where
  | failed (failure : Failure)
  /-- The types nest deeper than the walk may go. -/
  | tooDeep
deriving DecidableEq, Repr

/-- A walk changes what it keeps of its doings, also where it fails. -/
abbrev WalkIn (σ α : Type) := EStateM Stop σ α

/-- A walk that changes its progress. -/
abbrev Walk (α : Type) := WalkIn Progress α

/-- What a walk keeps of its doings: the ids of identities, and what happens to their records. -/
class Ledger (σ : Type) where
  /-- The id of a type parameter, a new one if it has none. It never has a record. -/
  issue : TypeId → WalkIn σ BundleId
  /-- The id of an identity, a new one with a slot for its record if it has none, and whether it had
  been started. -/
  open_ : Identity → WalkIn σ (BundleId × Bool)
  /-- Whether a type has an id. -/
  isRegistered : TypeId → WalkIn σ Bool
  /-- Lets a type share the id of an alias. -/
  share : TypeId → BundleId → WalkIn σ Unit
  /-- Begins to expand an identity: the shape of a type, the record of an alias. -/
  expand : Identity → WalkIn σ Unit
  /-- Fills the slot of a record. -/
  close : Record → WalkIn σ Unit

namespace Progress

/-- The progress after an identity without an id has been given one, with a slot for its record. -/
def open_ (p : Progress) (key : Identity) : Progress :=
  ⟨(p.registry.reserve key).2, p.table.reserve p.registry.next⟩

/-- The progress after an identity has been given the id of another, unless it has one. -/
def share (p : Progress) (key : Identity) (id : BundleId) : Progress :=
  { p with registry := p.registry.bind key id }

/-- The progress after a record has been finished. -/
def close (p : Progress) (record : Record) : Progress :=
  { p with table := p.table.fill record }

end Progress

namespace Walk

/-! ## Steps on the progress -/

/-- The id of an identity, a new one if it has none, and whether it had been started. -/
def reserve (key : Identity) : Walk (BundleId × Bool) :=
  modifyGet fun p =>
    let (result, registry) := p.registry.reserve key
    (result, { p with registry })

/-- Reserves the slot of a record. -/
def begin_ (id : BundleId) : Walk Unit :=
  modify fun p => { p with table := p.table.reserve id }

/-- The progress does not say which expansions have begun. -/
@[default_instance]
instance : Ledger Progress where
  issue t := return (← reserve (.type t)).1
  open_ key := do
    let (id, started) ← reserve key
    if !started then begin_ id
    return (id, started)
  isRegistered t := return ((← get).registry.get? (.type t)).isSome
  share t id := modify fun p => p.share (.type t) id
  expand _ := pure ()
  close record := modify fun p => p.close record

/-! ## The rules for one type -/

variable {σ : Type}

def fail {α : Type} (failure : Failure) : WalkIn σ α := throw (.failed failure)

def unexpected {α : Type} (what : Unexpected) : WalkIn σ α := fail (.unexpected what)

/-- The value, or a failure if there is none. -/
def orUnexpected {α : Type} (what : Unexpected) : Option α → WalkIn σ α
  | some a => pure a
  | none => unexpected what

/-- Methods and accessors are never assigned; other members are if their first declaration does not
forbid it. -/
def isReadonly (symbol : HostSymbol) : WalkIn σ Bool :=
  if symbol.flags.intersects (SymbolFlags.method ||| SymbolFlags.function ||| SymbolFlags.getAccessor |||
      SymbolFlags.setAccessor) then pure true
  else match symbol.declarations with
    | [] => fail (.missingDeclaration symbol.name)
    | d :: _ => pure (d.modifiers.contains ModifierFlags.readonly)

/-- The record of an identity, unless it has been started before. `first` walks the record and says
what comes of the type then; `again` says what comes of it later. -/
def expanding {α : Type} [Ledger σ] (key : Identity) (again : BundleId → α)
    (first : BundleId → WalkIn σ (Record × α)) : WalkIn σ α := do
  let (id, started) ← Ledger.open_ key
  if started then return again id
  let (record, a) ← first id
  Ledger.close record
  return a

section Rules

variable (host : Host) (settings : Settings) (resolve : TypeId → WalkIn σ TypeExpr)

/-- The walk of a type that may be missing. -/
def resolveOption : Option TypeId → WalkIn σ (Option TypeExpr)
  | none => pure none
  | some id => some <$> resolve id

/-- A reference to a record, generic if there are arguments. -/
def refer (id : BundleId) (arguments : List TypeId) : WalkIn σ TypeExpr :=
  if arguments.isEmpty then pure (.record id)
  else return .application id (← arguments.mapM resolve)

/-- A literal type. -/
def literal (id : TypeId) (kind : Kind) : WalkIn σ TypeExpr := do
  let found? := (host.type id).literal?
  match kind, found? with
  | .booleanLiteral, some (.boolean b) => return .primitive .boolean (some (.bool b))
  | .stringLiteral, some (.string s) => return .primitive .stringLiteral (some (.string s))
  | .numberLiteral, some (.number x) =>
    let n ← orUnexpected (.numberWithoutText id x) (Json.Number.ofLiteral? x)
    return .primitive .numberLiteral (some (.number n))
  | .booleanLiteral, _ => unexpected (.literal id "boolean" found?)
  | .stringLiteral, _ => unexpected (.literal id "string" found?)
  | _, _ => unexpected (.literal id "number" found?)

variable [Ledger σ]

/-- The declarations of type parameters. All get their ids first, so that a constraint can mention a
later parameter. -/
def generics (parameters : List TypeId) : WalkIn σ (List (Generic TypeExpr)) := do
  let ids ← parameters.mapM Ledger.issue
  (ids.zip parameters).mapM fun (id, parameter) =>
    return ⟨id, ← resolveOption resolve (host.type parameter).constraint?⟩

/-- The type and the modifiers of a signature's parameter. -/
def parameter (id : SymbolId) : WalkIn σ (Parameter TypeExpr) := do
  let symbol := host.symbol id
  let type ← orUnexpected (.parameterWithoutType symbol.name) symbol.type?
  return ⟨symbol.name, ← resolve type, symbol.flags.contains SymbolFlags.optional⟩

def signature (id : SignatureId) : WalkIn σ (Signature TypeExpr) := do
  let s := host.signature id
  let typeParameters ← generics host resolve s.typeParameters
  let parameters ← s.parameters.mapM (parameter host resolve)
  return ⟨typeParameters, parameters, ← resolve s.returnType⟩

/-- A member of a type whose owner has the name `owner?`; members that are left out become `any`. -/
def member (owner? : Option String) (id : SymbolId) : WalkIn σ (Member TypeExpr) := do
  let symbol := host.symbol id
  let readonly ← isReadonly symbol
  let type ←
    if settings.excludes owner? symbol.name then pure .any
    else resolve (← orUnexpected (.memberWithoutType symbol.name) symbol.type?)
  return ⟨symbol.name, type, symbol.flags.contains SymbolFlags.optional, readonly⟩

/-- The members of a type that a pass reads. -/
def selectedMembers (t : HostType) : List SymbolId :=
  match settings.memberSet with
  | .declared => t.declaredMembers?.getD t.members
  | .effective => t.members

/-- The shape of an object type. Of members with one name the last stays. -/
def shape (id : TypeId) (owner? : Option SymbolId) : WalkIn σ (Shape TypeExpr) := do
  Ledger.expand (.type id)
  let t := host.type id
  let ownerName? := owner?.map fun s => (host.symbol s).qualifiedName
  let bases ← t.bases.mapM resolve
  let members ← (selectedMembers settings t).mapM (member host settings resolve ownerName?)
  let callSignatures ← t.callSignatures.mapM (signature host resolve)
  let constructSignatures ← t.constructSignatures.mapM (signature host resolve)
  return { isClass := t.objectFlags.contains ObjectFlags.class_
           bases, callSignatures, constructSignatures
           members := members.foldl (fun done m => m.insert done) [] }

/-- A list of parameters as a record keeps it: not at all if it is empty. -/
def keepGenerics (gs : List (Generic TypeExpr)) : Option (List (Generic TypeExpr)) :=
  if gs.isEmpty then none else some gs

/-- The record of a class or interface. -/
def declarationRecord (id : TypeId) (record : BundleId) : WalkIn σ (Record × BundleId) := do
  let t := host.type id
  let typeParameters ← generics host resolve t.typeParameters
  let body ← shape host settings resolve id t.symbol?
  let symbol? := t.symbol?.map host.symbol
  return ({ Record.anonymous record (.shape body) with
    name? := symbol?.map (·.name)
    qualifiedName? := symbol?.map (·.qualifiedName)
    originFiles? := symbol?.map (·.originFiles)
    typeParameters? := keepGenerics typeParameters }, record)

/-- The id of the record of a class or interface. -/
def declaration (id : TypeId) : WalkIn σ BundleId :=
  expanding (.type id) (fun record => record) (declarationRecord host settings resolve id)

/-- The record of an object literal, with its shape. -/
def literalRecord (id : TypeId) (record : BundleId) : WalkIn σ (Record × TypeExpr) := do
  let body ← shape host settings resolve id (host.type id).symbol?
  return (.anonymous record (.shape body), .shape body)

/-- An object literal, spelled out unless it has been started. -/
def objectLiteral (id : TypeId) : WalkIn σ TypeExpr :=
  expanding (.type id) .record (literalRecord host settings resolve id)

/-- An instantiation: the arguments of a tuple, or a reference with arguments. -/
def instantiation (id : TypeId) : WalkIn σ TypeExpr := do
  let t := host.type id
  let target ← orUnexpected (.instantiationWithoutTarget id) t.target?
  if (host.type target).objectFlags.contains ObjectFlags.tuple then
    return .tuple (← t.typeArguments.mapM resolve)
  else
    refer resolve (← declaration host settings resolve target) t.typeArguments

/-- The name of a type in messages: that of its symbol, else its identity. -/
def nameOf (id : TypeId) : String :=
  match (host.type id).symbol? with
  | some s => (host.symbol s).qualifiedName
  | none => id.text

/-- A type by its own structure, whatever alias it is written by. -/
def structural (id : TypeId) : WalkIn σ TypeExpr := do
  let t := host.type id
  match t.kind with
  | .error fault => unexpected (.noKind fault)
  | .ok kind =>
    match kind with
    | .any => return .any
    | .boolean => return .primitive .boolean none
    | .number => return .primitive .number none
    | .string => return .primitive .string none
    | .undefined => return .primitive .undefined none
    | .null => return .primitive .null none
    | .never => return .primitive .never none
    | .void => return .primitive .void none
    | .symbol => return .primitive .symbol none
    | .nonPrimitive => return .primitive .object none
    | .booleanLiteral => literal host id .booleanLiteral
    | .numberLiteral => literal host id .numberLiteral
    | .stringLiteral => literal host id .stringLiteral
    | .typeParameter => return .parameter (← Ledger.issue id)
    | .union => return .union (← t.constituents.mapM resolve)
    | .intersection => return .intersection (← t.constituents.mapM resolve)
    | .index => return .keyOf (← resolve (← orUnexpected (.keyOfNothing id) t.keyOperand?))
    | .indexedAccess =>
      let (object, index) ← orUnexpected (.accessWithoutParts id) t.accessParts?
      let object ← resolve object
      let index ← resolve index
      return .indexedAccess object index (← resolveOption resolve t.constraint?)
    | .conditional => fail (.unsupported (.conditional id))
    | .enum => fail (.unsupported (.enum (nameOf host id)))
    | .reference => instantiation host settings resolve id
    | .nominal => return .record (← declaration host settings resolve id)
    | .anonymous => objectLiteral host settings resolve id

/-- Whether the type is an object literal that an alias may stand for. -/
def isObjectLiteral (t : HostType) : Bool :=
  t.flags.contains TypeFlags.object && t.objectFlags.contains ObjectFlags.anonymous &&
    !t.objectFlags.contains ObjectFlags.reference

/-- What an alias stands for. If its type is written by another alias it refers to that one. If it is
an object literal that has not been started, alias and literal share their id. -/
def aliasBody (record : BundleId) (alias_ : SymbolId) (declared : TypeId) : WalkIn σ TypeExpr := do
  let t := host.type declared
  if t.alias?.any (· ≠ alias_) then resolve declared
  else if isObjectLiteral t && !(← Ledger.isRegistered declared) then
    Ledger.share declared record
    return .shape (← shape host settings resolve declared (some alias_))
  else structural host settings resolve declared

/-- The record of an alias. -/
def aliasRecord (record : BundleId) (alias_ : SymbolId) : WalkIn σ Record := do
  Ledger.expand (.alias_ alias_)
  let symbol := host.symbol alias_
  let parameters ← generics host resolve symbol.aliasParameters
  let declared ← orUnexpected (.aliasWithoutType symbol.qualifiedName) symbol.declaredType?
  let body ← aliasBody host settings resolve record alias_ declared
  return { Record.anonymous record body with
    name? := some symbol.name
    qualifiedName? := some symbol.qualifiedName
    originFiles? := some symbol.originFiles
    isAlias := true
    aliasTypeParameters? := keepGenerics parameters }

/-- A type that is written by an alias. -/
def aliasOccurrence (id : TypeId) (alias_ : SymbolId) : WalkIn σ TypeExpr := do
  let record ← expanding (.alias_ alias_) (fun record => record)
    fun record => (·, record) <$> aliasRecord host settings resolve record alias_
  refer resolve record (host.type id).aliasArguments

/-- A type, by its alias if it is written by one. -/
def step (id : TypeId) : WalkIn σ TypeExpr :=
  match (host.type id).alias? with
  | some alias_ => aliasOccurrence host settings resolve id alias_
  | none => structural host settings resolve id

end Rules

/-! ## Walking to a depth -/

/-- Walks a type, at most `depth` types deep. -/
def resolve [Ledger σ] (host : Host) (settings : Settings) : Nat → TypeId → WalkIn σ TypeExpr
  | 0 => fun _ => throw .tooDeep
  | depth + 1 => step host settings (resolve host settings depth)

end Walk

end TypeBundle
