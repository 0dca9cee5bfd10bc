import TypeBundle.Snapshot.Load
/-!
# Asking by handles

Who asks a loaded snapshot holds on to handles: the positions of entries in their tables. A question
reads the entry at a handle and looks up what it mentions by id; what is found is handed out as handles
again. `Loaded.ask?` has no answer where a position is out of range or an id has no entry.
-/

namespace TypeBundle

/-- The position of a type in its table. -/
structure TypeHandle where
  position : Nat
deriving DecidableEq, Repr

/-- The position of a symbol in its table. -/
structure SymbolHandle where
  position : Nat
deriving DecidableEq, Repr

/-- The position of a signature in its table. -/
structure SignatureHandle where
  position : Nat
deriving DecidableEq, Repr

/-- A handle to something of a host. -/
inductive Handle where
  | type (handle : TypeHandle)
  | symbol (handle : SymbolHandle)
  | signature (handle : SignatureHandle)
deriving DecidableEq, Repr

/-! ## Questions -/

/-- What can be asked about a type. -/
inductive TypeQuestion where
  /-- What the entry says without mentioning anything: the identity, the flags, the value of a literal. -/
  | facts
  | symbol
  | alias_
  | aliasArguments
  | target
  | typeArguments
  | typeParameters
  | constituents
  | keyOperand
  | accessParts
  | constraint
  | bases
  | callSignatures
  | constructSignatures
  | declaredMembers
  | members
deriving DecidableEq, Repr

/-- What can be asked about a symbol. -/
inductive SymbolQuestion where
  /-- The identity, the names, the flags, the declarations. -/
  | facts
  | type
  | declaredType
  | aliasParameters
deriving DecidableEq, Repr

/-- What can be asked about a signature. -/
inductive SignatureQuestion where
  | typeParameters
  | parameters
  | returnType
deriving DecidableEq, Repr

/-- A question about the thing at a handle. -/
inductive Question where
  | type (handle : TypeHandle) (question : TypeQuestion)
  | symbol (handle : SymbolHandle) (question : SymbolQuestion)
  | signature (handle : SignatureHandle) (question : SignatureQuestion)
deriving DecidableEq, Repr

/-- The handle that a question is about. -/
def Question.subject : Question → Handle
  | type handle _ => .type handle
  | symbol handle _ => .symbol handle
  | signature handle _ => .signature handle

/-- What is looked up for a question about a type, in order. The index of an access is looked up only
after its object. -/
def TypeQuestion.lookups (t : HostType) : TypeQuestion → List Mention
  | facts => []
  | symbol => t.symbol?.toList.map .symbol
  | alias_ => t.alias?.toList.map .symbol
  | aliasArguments => t.aliasArguments.map .type
  | target => t.target?.toList.map .type
  | typeArguments => t.typeArguments.map .type
  | typeParameters => t.typeParameters.map .type
  | constituents => t.constituents.map .type
  | keyOperand => t.keyOperand?.toList.map .type
  | accessParts =>
    match t.accessObject? with
    | none => []
    | some object => (object :: t.accessIndex?.toList).map .type
  | constraint => t.constraint?.toList.map .type
  | bases => t.bases.map .type
  | callSignatures => t.callSignatures.map .signature
  | constructSignatures => t.constructSignatures.map .signature
  | declaredMembers => (t.declaredMembers?.getD []).map .symbol
  | members => t.members.map .symbol

/-- What is looked up for a question about a symbol. -/
def SymbolQuestion.lookups (s : HostSymbol) : SymbolQuestion → List Mention
  | facts => []
  | type => s.type?.toList.map .type
  | declaredType => s.declaredType?.toList.map .type
  | aliasParameters => s.aliasParameters.map .type

/-- What is looked up for a question about a signature. -/
def SignatureQuestion.lookups (s : HostSignature) : SignatureQuestion → List Mention
  | typeParameters => s.typeParameters.map .type
  | parameters => s.parameters.map .symbol
  | returnType => [.type s.returnType]

namespace Snapshot

/-! ## Handles by id -/

/-- The positions of entries by the word of their id. -/
def positionsOf {ι α : Type} (word : ι → UInt64) (es : List (Entry ι α)) : Index Nat :=
  es.zipIdx.foldl (fun index (e, position) => index.insert (word e.id) position) ∅

namespace Loaded

variable (l : Loaded)

def typeHandle? (id : TypeId) : Option TypeHandle :=
  (positionsOf TypeId.val l.snapshot.types)[id.val]?.map .mk

def symbolHandle? (id : SymbolId) : Option SymbolHandle :=
  (positionsOf SymbolId.val l.snapshot.symbols)[id.val]?.map .mk

def signatureHandle? (id : SignatureId) : Option SignatureHandle :=
  (positionsOf SignatureId.val l.snapshot.signatures)[id.val]?.map .mk

/-- The handle to what is mentioned. -/
def handle? : Mention → Option Handle
  | .type id => (l.typeHandle? id).map .type
  | .symbol id => (l.symbolHandle? id).map .symbol
  | .signature id => (l.signatureHandle? id).map .signature

/-! ## Entries by handle -/

def typeEntry? (handle : TypeHandle) : Option TypeEntry := l.snapshot.types[handle.position]?

def symbolEntry? (handle : SymbolHandle) : Option SymbolEntry := l.snapshot.symbols[handle.position]?

def signatureEntry? (handle : SignatureHandle) : Option SignatureEntry :=
  l.snapshot.signatures[handle.position]?

/-- What a handle is a handle to. -/
def identity? : Handle → Option Mention
  | .type handle => (l.typeEntry? handle).map fun e => .type e.id
  | .symbol handle => (l.symbolEntry? handle).map fun e => .symbol e.id
  | .signature handle => (l.signatureEntry? handle).map fun e => .signature e.id

/-- The handles that a question is answered with. -/
def ask? : Question → Option (List Handle)
  | .type handle question => do
    let e ← l.typeEntry? handle
    (question.lookups e.facts).mapM l.handle?
  | .symbol handle question => do
    let e ← l.symbolEntry? handle
    (question.lookups e.facts).mapM l.handle?
  | .signature handle question => do
    let e ← l.signatureEntry? handle
    (question.lookups e.facts).mapM l.handle?

end Loaded

end Snapshot

end TypeBundle
