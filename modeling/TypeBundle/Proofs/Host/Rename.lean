import Mathlib.Tactic.Simps.Basic
import TypeBundle.Proofs.Snapshot.Loading
/-!
# Other ids for the same host

A renaming gives types, symbols and signatures other ids. It carries a part of one host over to another
(`Renaming.Carries`) if the other host says about every renamed id what the first says about the id, with
what is mentioned renamed as well.
-/

namespace TypeBundle

/-- Other ids for types, symbols and signatures. -/
structure Renaming where
  type : TypeId → TypeId
  symbol : SymbolId → SymbolId
  signature : SignatureId → SignatureId

/-- What an identity is an identity of. -/
def Identity.mention : Identity → Mention
  | type id => .type id
  | alias_ id => .symbol id

namespace Renaming

variable (f : Renaming)

/-- Every id stays as it is. -/
protected def id : Renaming := ⟨id, id, id⟩

def identity : Identity → Identity
  | .type id => .type (f.type id)
  | .alias_ id => .alias_ (f.symbol id)

theorem identity_id (key : Identity) : Renaming.id.identity key = key := by cases key <;> rfl

end Renaming

/-- The same facts with other ids. -/
@[simps]
def HostType.rename (f : Renaming) (t : HostType) : HostType :=
  { t with
    symbol? := t.symbol?.map f.symbol
    alias? := t.alias?.map f.symbol
    aliasArguments := t.aliasArguments.map f.type
    target? := t.target?.map f.type
    typeArguments := t.typeArguments.map f.type
    typeParameters := t.typeParameters.map f.type
    constituents := t.constituents.map f.type
    keyOperand? := t.keyOperand?.map f.type
    accessObject? := t.accessObject?.map f.type
    accessIndex? := t.accessIndex?.map f.type
    constraint? := t.constraint?.map f.type
    bases := t.bases.map f.type
    callSignatures := t.callSignatures.map f.signature
    constructSignatures := t.constructSignatures.map f.signature
    declaredMembers? := t.declaredMembers?.map (·.map f.symbol)
    members := t.members.map f.symbol }

/-- The same facts with other ids. -/
@[simps]
def HostSymbol.rename (f : Renaming) (s : HostSymbol) : HostSymbol :=
  { s with
    type? := s.type?.map f.type
    declaredType? := s.declaredType?.map f.type
    aliasParameters := s.aliasParameters.map f.type }

/-- The same facts with other ids. -/
@[simps]
def HostSignature.rename (f : Renaming) (s : HostSignature) : HostSignature where
  typeParameters := s.typeParameters.map f.type
  parameters := s.parameters.map f.symbol
  returnType := f.type s.returnType

theorem HostType.rename_id (t : HostType) : t.rename .id = t := by
  simp [HostType.rename, Renaming.id]

theorem HostSymbol.rename_id (s : HostSymbol) : s.rename .id = s := by
  simp [HostSymbol.rename, Renaming.id]

theorem HostSignature.rename_id (s : HostSignature) : s.rename .id = s := by
  simp [HostSignature.rename, Renaming.id]

namespace Renaming

open Snapshot

/-- What is known of one host is the same in another under other ids, and different ids stay different. It
is everything that is mentioned by what is known. -/
structure Carries (f : Renaming) (Known : Mention → Prop) (host host' : Host) : Prop where
  type : ∀ t, Known (.type t) → host'.type (f.type t) = (host.type t).rename f
  symbol : ∀ s, Known (.symbol s) → host'.symbol (f.symbol s) = (host.symbol s).rename f
  signature : ∀ g, Known (.signature g) → host'.signature (f.signature g) = (host.signature g).rename f
  ofType : ∀ t, Known (.type t) → ∀ m ∈ typeMentions (host.type t), Known m
  ofSymbol : ∀ s, Known (.symbol s) → ∀ m ∈ symbolMentions (host.symbol s), Known m
  ofSignature : ∀ g, Known (.signature g) → ∀ m ∈ signatureMentions (host.signature g), Known m
  types : ∀ t u, Known (.type t) → Known (.type u) → f.type t = f.type u → t = u
  symbols : ∀ s x, Known (.symbol s) → Known (.symbol x) → f.symbol s = f.symbol x → s = x

namespace Carries

variable {f : Renaming} {Known : Mention → Prop} {host host' : Host} (hf : f.Carries Known host host')
include hf

/-- Different identities stay different. -/
theorem identity_eq_iff {key other : Identity} (hkey : Known key.mention) (hother : Known other.mention) :
    f.identity other = f.identity key ↔ other = key := by
  constructor
  · intro h
    cases key <;> cases other <;> simp only [identity, reduceCtorEq, Identity.type.injEq, Identity.alias_.injEq] at h
    · rw [hf.types _ _ hother hkey h]
    · rw [hf.symbols _ _ hother hkey h]
  · rintro rfl
    rfl

/-- A type is written by another alias exactly if it is so under other ids. -/
theorem namesOther_iff {s : SymbolId} {d : TypeId} (hs : Known (.symbol s)) (hd : Known (.type d)) :
    host'.NamesOther (f.symbol s) (f.type d) ↔ host.NamesOther s d := by
  unfold Host.NamesOther
  rw [hf.type d hd, HostType.rename]
  cases ha : (host.type d).alias? with
  | none => rfl
  | some x =>
    have hx : Known (.symbol x) := hf.ofType d hd _ (by simp [typeMentions, ha])
    have : f.symbol x = f.symbol s ↔ x = s := ⟨hf.symbols x s hx hs, congrArg f.symbol⟩
    simp [this]

theorem ownerName_eq {owner? : Option SymbolId} (howner : ∀ s ∈ owner?, Known (.symbol s)) :
    host'.ownerName (owner?.map f.symbol) = host.ownerName owner? := by
  cases owner? with
  | none => rfl
  | some s => simp only [Host.ownerName, Option.map_some, hf.symbol s (howner s rfl)]; rfl

end Carries

end Renaming

/-! ## What a walk reads -/

namespace HostType

variable (f : Renaming) (t : HostType)

@[simp] theorem kind_rename : (t.rename f).kind = t.kind := rfl

@[simp] theorem isObjectLiteral_rename : Walk.isObjectLiteral (t.rename f) = Walk.isObjectLiteral t := rfl

theorem accessParts?_rename : (t.rename f).accessParts? =
    t.accessParts?.map fun parts => (f.type parts.1, f.type parts.2) := by
  unfold accessParts? rename
  cases t.accessObject? <;> cases t.accessIndex? <;> rfl

theorem selectedMembers_rename (settings : Settings) :
    Walk.selectedMembers settings (t.rename f) = (Walk.selectedMembers settings t).map f.symbol := by
  unfold Walk.selectedMembers rename
  cases settings.memberSet <;> cases t.declaredMembers? <;> rfl

end HostType

namespace HostSymbol

variable (f : Renaming) (s : HostSymbol)

@[simp] theorem qualifiedName_rename : (s.rename f).qualifiedName = s.qualifiedName := rfl

@[simp] theorem originFiles_rename : (s.rename f).originFiles = s.originFiles := rfl

@[simp] theorem isUndeclared_rename : (s.rename f).isUndeclared = s.isUndeclared := rfl

@[simp] theorem isReadonly_rename : (s.rename f).isReadonly = s.isReadonly := rfl

end HostSymbol

end TypeBundle
