import Mathlib.Data.List.Forall2
import TypeBundle.Proofs.Host.Parts
import TypeBundle.Proofs.TypeExpr.Children
import TypeBundle.Proofs.TypeExpr.Members
/-!
# What a bundle says about a host

The progress of a walk maps type expressions back to the host: its registry says which identity an id
was handed out for, and its table holds the records. `Represents` is what an expression may look like
for a type, and `RepresentsRecord` what a record may look like for an identity.

An object literal has two representations: the id of its record, and the shape that is the body of
that record. What a record says about the literal is said by `RepresentsRecord` alone, so expressions
do not represent a host forever downwards.
-/

namespace TypeBundle

/-- A mention of a record, generic if there are arguments. -/
def TypeExpr.mention (id : BundleId) (arguments : List TypeExpr) : TypeExpr :=
  if arguments.isEmpty then .record id else .application id arguments

/-- The expression of a primitive or literal type. -/
def HostType.constant? (t : HostType) : Option TypeExpr :=
  match t.kind, t.literal? with
  | .ok .any, _ => some .any
  | .ok .boolean, _ => some (.primitive .boolean none)
  | .ok .number, _ => some (.primitive .number none)
  | .ok .string, _ => some (.primitive .string none)
  | .ok .undefined, _ => some (.primitive .undefined none)
  | .ok .null, _ => some (.primitive .null none)
  | .ok .never, _ => some (.primitive .never none)
  | .ok .void, _ => some (.primitive .void none)
  | .ok .symbol, _ => some (.primitive .symbol none)
  | .ok .nonPrimitive, _ => some (.primitive .object none)
  | .ok .booleanLiteral, some (.boolean b) => some (.primitive .boolean (some (.bool b)))
  | .ok .stringLiteral, some (.string s) => some (.primitive .stringLiteral (some (.string s)))
  | .ok .numberLiteral, some (.number x) =>
    (Json.Number.ofLiteral? x).map fun n => .primitive .numberLiteral (some (.number n))
  | _, _ => none

theorem HostType.constant_eq {t : HostType} {e : TypeExpr} (h : t.constant? = some e) :
    ∃ kind literal?, e = .primitive kind literal? := by
  unfold HostType.constant? at h
  split at h <;> first | cases h | obtain ⟨n, -, rfl⟩ := Option.map_eq_some_iff.1 h
  all_goals exact ⟨_, _, rfl⟩

namespace Host

variable (host : Host)

/-- The type stands in a list of type parameters. -/
def InParameterList (t : TypeId) : Prop :=
  (∃ u, t ∈ (host.type u).typeParameters) ∨ (∃ s, t ∈ (host.symbol s).aliasParameters) ∨
    ∃ g, t ∈ (host.signature g).typeParameters

/-- The type is walked as a type parameter somewhere. -/
def IsParameter (t : TypeId) : Prop := host.InParameterList t ∨ (host.type t).kind = .ok .typeParameter

/-- The type is a class or interface, or is instantiated as if it were one. -/
def IsDeclared (t : TypeId) : Prop :=
  (host.type t).kind = .ok .nominal ∨
    ∃ u, (host.type u).kind = .ok .reference ∧ (host.type u).target? = some t ∧ ¬host.IsTuple t

/-- The type is an object literal that the alias names. -/
def IsLiteralOf (s : SymbolId) (d : TypeId) : Prop :=
  (host.symbol s).declaredType? = some d ∧ ¬host.NamesOther s d ∧ Walk.isObjectLiteral (host.type d) = true

end Host

/-! ## Types -/

/-- How a type is looked at: as it is written, or by its own structure. -/
inductive View where
  | written
  | bare

/-- The expression is what a bundle says about the type. -/
inductive Represents (host : Host) (q : Progress) : View → TypeId → TypeExpr → Prop
  | alias_ {t s id es} : (host.type t).alias? = some s → q.registry.get? (.alias_ s) = some id →
      List.Forall₂ (Represents host q .written) (host.type t).aliasArguments es →
      Represents host q .written t (.mention id es)
  | bare {t e} : (host.type t).alias? = none → Represents host q .bare t e → Represents host q .written t e
  | constant {t e} : (host.type t).constant? = some e → Represents host q .bare t e
  | parameter {t id} : (host.type t).kind = .ok .typeParameter → q.registry.get? (.type t) = some id →
      Represents host q .bare t (.parameter id)
  | union {t es} : (host.type t).kind = .ok .union →
      List.Forall₂ (Represents host q .written) (host.type t).constituents es → Represents host q .bare t (.union es)
  | intersection {t es} : (host.type t).kind = .ok .intersection →
      List.Forall₂ (Represents host q .written) (host.type t).constituents es →
      Represents host q .bare t (.intersection es)
  | keyOf {t c e} : (host.type t).kind = .ok .index → (host.type t).keyOperand? = some c →
      Represents host q .written c e → Represents host q .bare t (.keyOf e)
  | indexedAccess {t a b x y z?} : (host.type t).kind = .ok .indexedAccess →
      (host.type t).accessParts? = some (a, b) → Represents host q .written a x → Represents host q .written b y →
      Option.Rel (Represents host q .written) (host.type t).constraint? z? →
      Represents host q .bare t (.indexedAccess x y z?)
  | tuple {t u es} : (host.type t).kind = .ok .reference → (host.type t).target? = some u → host.IsTuple u →
      List.Forall₂ (Represents host q .written) (host.type t).typeArguments es → Represents host q .bare t (.tuple es)
  | instantiation {t u id es} : (host.type t).kind = .ok .reference → (host.type t).target? = some u →
      ¬host.IsTuple u → q.registry.get? (.type u) = some id →
      List.Forall₂ (Represents host q .written) (host.type t).typeArguments es →
      Represents host q .bare t (.mention id es)
  | nominal {t id} : (host.type t).kind = .ok .nominal → q.registry.get? (.type t) = some id →
      Represents host q .bare t (.record id)
  | literalMention {t id} : (host.type t).kind = .ok .anonymous → q.registry.get? (.type t) = some id →
      Represents host q .bare t (.record id)
  | literalShape {t id record s} : (host.type t).kind = .ok .anonymous → q.registry.get? (.type t) = some id →
      q.table.get? id = some record → record.body = .shape s → Represents host q .bare t (.shape s)

/-! ## Shapes -/

section

variable (host : Host) (settings : Settings) (q : Progress)

structure RepresentsGeneric (t : TypeId) (g : Generic TypeExpr) : Prop where
  id : q.registry.get? (.type t) = some g.id
  constraint : Option.Rel (Represents host q .written) (host.type t).constraint? g.constraint?

structure RepresentsParameter (s : SymbolId) (x : Parameter TypeExpr) : Prop where
  name : x.name = (host.symbol s).name
  type : ∃ t, (host.symbol s).type? = some t ∧ Represents host q .written t x.type
  optional : x.optional = (host.symbol s).flags.contains SymbolFlags.optional

structure RepresentsSignature (g : SignatureId) (s : Signature TypeExpr) : Prop where
  typeParameters : List.Forall₂ (RepresentsGeneric host q) (host.signature g).typeParameters s.typeParameters
  parameters : List.Forall₂ (RepresentsParameter host q) (host.signature g).parameters s.parameters
  returnType : Represents host q .written (host.signature g).returnType s.returnType

/-- A member of a type whose owner has the name `owner?`. -/
structure RepresentsMember (owner? : Option String) (s : SymbolId) (m : Member TypeExpr) : Prop where
  name : m.name = (host.symbol s).name
  type : if settings.excludes owner? (host.symbol s).name then m.type = .any
    else ∃ t, (host.symbol s).type? = some t ∧ Represents host q .written t m.type
  optional : m.optional = (host.symbol s).flags.contains SymbolFlags.optional
  declared : (host.symbol s).isUndeclared = false
  readonly : m.readonly = (host.symbol s).isReadonly

/-- The shape of a type whose members are left out under the name of the owner. Of members with one
name the last stays. -/
structure RepresentsShape (t : TypeId) (owner? : Option SymbolId) (s : Shape TypeExpr) : Prop where
  isClass : s.isClass = (host.type t).objectFlags.contains ObjectFlags.class_
  bases : List.Forall₂ (Represents host q .written) (host.type t).bases s.bases
  callSignatures : List.Forall₂ (RepresentsSignature host q) (host.type t).callSignatures s.callSignatures
  constructSignatures :
    List.Forall₂ (RepresentsSignature host q) (host.type t).constructSignatures s.constructSignatures
  members : ∃ ms, List.Forall₂ (RepresentsMember host settings q (host.ownerName owner?))
      (Walk.selectedMembers settings (host.type t)) ms ∧
    Member.LastOf ms s.members

/-! ## Records -/

/-- The body of the record with the id is what the alias stands for. -/
inductive RepresentsAlias (id : BundleId) (s : SymbolId) (d : TypeId) : TypeExpr → Prop
  | other {e} : host.NamesOther s d → Represents host q .written d e → RepresentsAlias id s d e
  /-- Alias and literal share the record. -/
  | literal {b} : host.IsLiteralOf s d → q.registry.get? (.type d) = some id →
      RepresentsShape host settings q d (some s) b → RepresentsAlias id s d (.shape b)
  | body {e} : ¬host.NamesOther s d → (host.IsLiteralOf s d → q.registry.get? (.type d) ≠ some id) →
      Represents host q .bare d e → RepresentsAlias id s d e

/-- The record of an alias with this body. -/
def Host.recordOfAlias (s : SymbolId) (id : BundleId) (parameters : List (Generic TypeExpr)) (body : TypeExpr) :
    Record :=
  { Record.anonymous id body with
    name? := some (host.symbol s).name
    qualifiedName? := some (host.symbol s).qualifiedName
    originFiles? := some (host.symbol s).originFiles
    isAlias := true
    aliasTypeParameters? := Walk.keepGenerics parameters }

/-- The record of a class or interface with this shape. -/
def Host.recordOfType (t : TypeId) (id : BundleId) (parameters : List (Generic TypeExpr)) (body : Shape TypeExpr) :
    Record :=
  let symbol? := (host.type t).symbol?.map host.symbol
  { Record.anonymous id (.shape body) with
    name? := symbol?.map (·.name)
    qualifiedName? := symbol?.map (·.qualifiedName)
    originFiles? := symbol?.map (·.originFiles)
    typeParameters? := Walk.keepGenerics parameters }

theorem Walk.keepGenerics_getD (gs : List (Generic TypeExpr)) : (Walk.keepGenerics gs).getD [] = gs := by
  unfold Walk.keepGenerics
  cases gs <;> rfl

theorem Host.generics_recordOfAlias (s : SymbolId) (id : BundleId) (gs : List (Generic TypeExpr)) (e : TypeExpr) :
    (host.recordOfAlias s id gs e).generics = gs := by
  simp [Record.generics, Host.recordOfAlias, Record.anonymous, Walk.keepGenerics_getD]

theorem Host.generics_recordOfType (t : TypeId) (id : BundleId) (gs : List (Generic TypeExpr))
    (b : Shape TypeExpr) : (host.recordOfType t id gs b).generics = gs := by
  simp [Record.generics, Host.recordOfType, Record.anonymous, Walk.keepGenerics_getD]

/-- The record is what a bundle says about the identity. -/
inductive RepresentsRecord : Identity → Record → Prop
  | alias_ {s d id gs e} : (host.symbol s).declaredType? = some d →
      List.Forall₂ (RepresentsGeneric host q) (host.symbol s).aliasParameters gs →
      RepresentsAlias host settings q id s d e → RepresentsRecord (.alias_ s) (host.recordOfAlias s id gs e)
  | declaration {t id gs b} : host.IsDeclared t →
      List.Forall₂ (RepresentsGeneric host q) (host.type t).typeParameters gs →
      RepresentsShape host settings q t (host.type t).symbol? b →
      RepresentsRecord (.type t) (host.recordOfType t id gs b)
  | literal {t id b} : (host.type t).kind = .ok .anonymous → (host.type t).alias? = none →
      RepresentsShape host settings q t (host.type t).symbol? b →
      RepresentsRecord (.type t) (.anonymous id (.shape b))
  | shared {s t record} : host.IsLiteralOf s t → q.registry.get? (.alias_ s) = q.registry.get? (.type t) →
      RepresentsRecord (.alias_ s) record → RepresentsRecord (.type t) record

end

/-! ## What representations say -/

theorem exists_of_mem_left {α β : Type} {R : α → β → Prop} {as : List α} {bs : List β} (h : List.Forall₂ R as bs) :
    ∀ a ∈ as, ∃ b ∈ bs, R a b := by
  induction h with
  | nil => simp
  | cons hab _ ih =>
    simp only [List.mem_cons, forall_eq_or_imp, exists_eq_or_imp]
    exact ⟨.inl hab, fun a ha => .inr (ih a ha)⟩

theorem exists_of_mem_right {α β : Type} {R : α → β → Prop} {as : List α} {bs : List β} (h : List.Forall₂ R as bs) :
    ∀ b ∈ bs, ∃ a ∈ as, R a b := exists_of_mem_left h.flip

section

variable {host : Host} {settings : Settings} {q : Progress} {s : SymbolId} {t : TypeId} {id : BundleId} {e : TypeExpr}
variable {record : Record}

/-- The body of the record of an alias is what the alias stands for. -/
theorem RepresentsRecord.exists_body (h : RepresentsRecord host settings q (.alias_ s) record) :
    ∃ t, (host.symbol s).declaredType? = some t ∧ RepresentsAlias host settings q record.id s t record.body := by
  cases h with
  | alias_ ht _ hbody => exact ⟨_, ht, hbody⟩

theorem RepresentsRecord.body (h : RepresentsRecord host settings q (.alias_ s) record)
    (ht : (host.symbol s).declaredType? = some t) : RepresentsAlias host settings q record.id s t record.body := by
  obtain ⟨t', ht', hbody⟩ := h.exists_body
  obtain rfl := Option.some.inj (ht.symm.trans ht')
  exact hbody

/-- An alias that names another one stands for a mention of it. -/
theorem RepresentsAlias.of_namesOther (h : RepresentsAlias host settings q id s t e) (hnames : host.NamesOther s t) :
    Represents host q .written t e := by
  cases h with
  | other _ hrep => exact hrep
  | literal hl _ _ => exact absurd hnames hl.2.1
  | body hn _ _ => exact absurd hnames hn

/-- An alias that names no other one shares the record of its object literal, or it stands for the structure of its
type. -/
theorem RepresentsAlias.of_not_namesOther (h : RepresentsAlias host settings q id s t e)
    (hnames : ¬host.NamesOther s t) :
    (host.IsLiteralOf s t ∧ q.registry.get? (.type t) = some id ∧
      ∃ b, e = .shape b ∧ RepresentsShape host settings q t (some s) b) ∨
    (host.IsLiteralOf s t → q.registry.get? (.type t) ≠ some id) ∧ Represents host q .bare t e := by
  cases h with
  | other hn _ => exact absurd hn hnames
  | literal hl hid hb => exact .inl ⟨hl, hid, _, rfl, hb⟩
  | body _ hne hrep => exact .inr ⟨hne, hrep⟩

/-- The record of a type is a shape of it, also one that it shares with an alias. -/
theorem RepresentsRecord.shape (h : RepresentsRecord host settings q (.type t) record)
    (hid : q.registry.get? (.type t) = some record.id) :
    ∃ owner? s, record.body = .shape s ∧ RepresentsShape host settings q t owner? s := by
  cases h with
  | declaration _ _ hb => exact ⟨_, _, rfl, hb⟩
  | literal _ _ hb => exact ⟨_, _, rfl, hb⟩
  | shared hl _ halias =>
    rcases (halias.body hl.1).of_not_namesOther hl.2.1 with ⟨-, -, b, hshape, hb⟩ | ⟨hne, -⟩
    · exact ⟨_, b, hshape, hb⟩
    · exact absurd hid (hne hl)

end

end TypeBundle
