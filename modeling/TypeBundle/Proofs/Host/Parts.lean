import TypeBundle.Pass.Walk
/-!
# What a walk asks about

Which types a walk goes on to from a type, a symbol or a signature, and which answers of the host make
it fail there, read off the host alone. `Leads` joins them: a step from one spot of a host to another
that a walk may take. Whether it takes the step depends on what has been started before; whether it
fails at a spot does not.
-/

namespace TypeBundle

/-! ## The types inside a type -/

namespace HostType

/-- The types inside a type that a walk goes on to without starting an identity. -/
def parts (t : HostType) : List TypeId :=
  match t.kind with
  | .ok .union | .ok .intersection => t.constituents
  | .ok .index => t.keyOperand?.toList
  | .ok .indexedAccess =>
    match t.accessParts? with
    | some (object, index) => object :: index :: t.constraint?.toList
    | none => []
  | .ok .reference => t.typeArguments
  | _ => []

/-- Such types for a type as it is written: an alias hides all but its arguments. -/
def writtenParts (t : HostType) : List TypeId :=
  match t.alias? with
  | some _ => t.aliasArguments
  | none => t.parts

end HostType

namespace HostSymbol

/-- Methods and accessors are never assigned. -/
def isFixed (s : HostSymbol) : Bool :=
  s.flags.intersects (SymbolFlags.method ||| SymbolFlags.function ||| SymbolFlags.getAccessor |||
    SymbolFlags.setAccessor)

/-- Data that is declared nowhere. -/
def isUndeclared (s : HostSymbol) : Bool := !s.isFixed && s.declarations.isEmpty

/-- Whether the member is never assigned, as a walk understands its first declaration. -/
def isReadonly (s : HostSymbol) : Bool :=
  s.isFixed || s.declarations.head?.any (·.modifiers.contains ModifierFlags.readonly)

end HostSymbol

theorem Walk.isReadonly_eq {σ : Type} (s : HostSymbol) : (isReadonly s : WalkIn σ Bool) =
    if s.isUndeclared then fail (.missingDeclaration s.name) else pure s.isReadonly := by
  unfold isReadonly HostSymbol.isReadonly HostSymbol.isUndeclared HostSymbol.isFixed
  cases s.flags.intersects (SymbolFlags.method ||| SymbolFlags.function ||| SymbolFlags.getAccessor |||
    SymbolFlags.setAccessor) <;> cases s.declarations <;> rfl

namespace Host

variable (host : Host) (settings : Settings)

/-- The constraints of type parameters. -/
def constraints (parameters : List TypeId) : List TypeId :=
  parameters.filterMap fun t => (host.type t).constraint?

/-- The types that a signature mentions, apart from its type parameters. -/
def signatureParts (id : SignatureId) : List TypeId :=
  let s := host.signature id
  host.constraints s.typeParameters ++ s.parameters.filterMap (fun p => (host.symbol p).type?) ++
    [s.returnType]

/-- The type of a member, unless the member is left out. -/
def memberParts (owner? : Option String) (id : SymbolId) : List TypeId :=
  if settings.excludes owner? (host.symbol id).name then [] else (host.symbol id).type?.toList

/-- The name under which members of a type are left out. -/
def ownerName (owner? : Option SymbolId) : Option String :=
  owner?.map fun s => (host.symbol s).qualifiedName

/-- The signatures of a type. -/
def signatures (id : TypeId) : List SignatureId :=
  (host.type id).callSignatures ++ (host.type id).constructSignatures

/-- The types that the shape of a type mentions, apart from type parameters. -/
def shapeParts (id : TypeId) (owner? : Option SymbolId) : List TypeId :=
  (host.type id).bases ++
    (Walk.selectedMembers settings (host.type id)).flatMap (host.memberParts settings (host.ownerName owner?)) ++
    (host.signatures id).flatMap host.signatureParts

/-! ## Flaws -/

/-- What is wrong with a type by itself. -/
def typeFlaw? (id : TypeId) : Option Failure :=
  let t := host.type id
  match t.kind with
  | .error fault => some (.unexpected (.noKind fault))
  | .ok .conditional => some (.unsupported (.conditional id))
  | .ok .enum => some (.unsupported (.enum (Walk.nameOf host id)))
  | .ok .booleanLiteral =>
    match t.literal? with
    | some (.boolean _) => none
    | found? => some (.unexpected (.literal id "boolean" found?))
  | .ok .stringLiteral =>
    match t.literal? with
    | some (.string _) => none
    | found? => some (.unexpected (.literal id "string" found?))
  | .ok .numberLiteral =>
    match t.literal? with
    | some (.number x) =>
      if (Json.Number.ofLiteral? x).isSome then none else some (.unexpected (.numberWithoutText id x))
    | found? => some (.unexpected (.literal id "number" found?))
  | .ok .index => if t.keyOperand?.isSome then none else some (.unexpected (.keyOfNothing id))
  | .ok .indexedAccess => if t.accessParts?.isSome then none else some (.unexpected (.accessWithoutParts id))
  | .ok .reference =>
    if t.target?.isSome then none else some (.unexpected (.instantiationWithoutTarget id))
  | _ => none

/-- What is wrong with a member of a type: a data member needs a place of declaration, and a type
unless it is left out. -/
def memberFlaw? (owner? : Option String) (id : SymbolId) : Option Failure :=
  let s := host.symbol id
  if s.isUndeclared then some (.missingDeclaration s.name)
  else if !settings.excludes owner? s.name && s.type?.isNone then some (.unexpected (.memberWithoutType s.name))
  else none

/-- What is wrong with a parameter of a signature. -/
def parameterFlaw? (id : SymbolId) : Option Failure :=
  if (host.symbol id).type?.isSome then none
  else some (.unexpected (.parameterWithoutType (host.symbol id).name))

/-- What is wrong with the shape of a type by itself. -/
def shapeFlaws (id : TypeId) (owner? : Option SymbolId) : List Failure :=
  (Walk.selectedMembers settings (host.type id)).filterMap (host.memberFlaw? settings (host.ownerName owner?)) ++
    (host.signatures id).flatMap fun s => (host.signature s).parameters.filterMap host.parameterFlaw?

/-- What is wrong with an alias by itself. -/
def aliasFlaw? (id : SymbolId) : Option Failure :=
  if (host.symbol id).declaredType?.isSome then none
  else some (.unexpected (.aliasWithoutType (host.symbol id).qualifiedName))

end Host

/-! ## Steps of a walk -/

/-- Where a walk can be. -/
inductive Spot where
  /-- At a type as it is written. -/
  | written (type : TypeId)
  /-- At a type by its own structure. -/
  | bare (type : TypeId)
  /-- At the record of a class or interface, also one that is only instantiated. -/
  | declared (type : TypeId)
  /-- At the shape of a type whose members are left out under the name of the owner. -/
  | shape (type : TypeId) (owner? : Option SymbolId)
  /-- At the record of an alias. -/
  | alias_ (symbol : SymbolId)
deriving DecidableEq

namespace Host

/-- Whether the type is written by an alias other than this one. -/
def NamesOther (host : Host) (alias_ : SymbolId) (declared : TypeId) : Prop :=
  (host.type declared).alias?.any (· ≠ alias_) = true

/-- A type that an instantiation spells out. -/
def IsTuple (host : Host) (target : TypeId) : Prop :=
  (host.type target).objectFlags.contains ObjectFlags.tuple = true

variable (host : Host) (settings : Settings)

/-- A walk may go from one spot on to the other. -/
inductive Leads : Spot → Spot → Prop
  | alias_ {t s} : (host.type t).alias? = some s → Leads (.written t) (.alias_ s)
  | aliasArgument {t s a} : (host.type t).alias? = some s → a ∈ (host.type t).aliasArguments →
      Leads (.written t) (.written a)
  | bare {t} : (host.type t).alias? = none → Leads (.written t) (.bare t)
  | aliasConstraint {s c} : c ∈ host.constraints (host.symbol s).aliasParameters →
      Leads (.alias_ s) (.written c)
  | otherAlias {s d} : (host.symbol s).declaredType? = some d → host.NamesOther s d →
      Leads (.alias_ s) (.written d)
  | aliasLiteral {s d} : (host.symbol s).declaredType? = some d → ¬host.NamesOther s d →
      Walk.isObjectLiteral (host.type d) = true → Leads (.alias_ s) (.shape d (some s))
  | aliasBody {s d} : (host.symbol s).declaredType? = some d → ¬host.NamesOther s d →
      (host.type d).kind ≠ .ok .anonymous → Leads (.alias_ s) (.bare d)
  | part {t c} : c ∈ (host.type t).parts → Leads (.bare t) (.written c)
  | target {t u} : (host.type t).kind = .ok .reference → (host.type t).target? = some u →
      ¬host.IsTuple u → Leads (.bare t) (.declared u)
  | nominal {t} : (host.type t).kind = .ok .nominal → Leads (.bare t) (.declared t)
  | literal {t} : (host.type t).kind = .ok .anonymous → Leads (.bare t) (.shape t (host.type t).symbol?)
  | constraint {t c} : c ∈ host.constraints (host.type t).typeParameters →
      Leads (.declared t) (.written c)
  | declaredShape {t} : Leads (.declared t) (.shape t (host.type t).symbol?)
  | shapePart {t owner? c} : c ∈ host.shapeParts settings t owner? →
      Leads (.shape t owner?) (.written c)

/-- Something is wrong with the host at a spot. -/
inductive Flawed : Spot → Failure → Prop
  | type {t f} : host.typeFlaw? t = some f → Flawed (.bare t) f
  | shape {t owner? f} : f ∈ host.shapeFlaws settings t owner? → Flawed (.shape t owner?) f
  | alias_ {s f} : host.aliasFlaw? s = some f → Flawed (.alias_ s) f

end Host

end TypeBundle
