import TypeBundle.Flags.Basic
import TypeBundle.Document
/-!
# Hosts

A host is a type checker that can be asked about its types, symbols and signatures. It knows them by
id, and what it says about one mentions others by id. Its answers never change.
-/

namespace TypeBundle

/-- The id of a type of a host. -/
structure TypeId where
  val : UInt64
deriving DecidableEq, Repr, Inhabited

/-- The id of a symbol of a host. -/
structure SymbolId where
  val : UInt64
deriving DecidableEq, Repr, Inhabited

/-- The id of a signature of a host. -/
structure SignatureId where
  val : UInt64
deriving DecidableEq, Repr, Inhabited

/-- A word in decimal digits. -/
def wordText (n : UInt64) : String := String.ofList (Text.decimal n.toNat)

/-- The text of a type in messages. -/
def TypeId.text (id : TypeId) : String := "type " ++ wordText id.val

/-- The text of a symbol in messages. -/
def SymbolId.text (id : SymbolId) : String := "symbol " ++ wordText id.val

/-- The text of a signature in messages. -/
def SignatureId.text (id : SignatureId) : String := "signature " ++ wordText id.val

/-- A place where a symbol is declared. -/
structure Declaration where
  file : String
  modifiers : ModifierFlags
deriving DecidableEq, Repr

/-- What a host says about a type. What does not apply to a type is empty. -/
structure HostType where
  flags : TypeFlags
  objectFlags : ObjectFlags := .empty
  /-- The value of a literal type. -/
  literal? : Option Literal := none
  /-- The symbol that names the type. -/
  symbol? : Option SymbolId := none
  /-- The alias by which the type is written here. -/
  alias? : Option SymbolId := none
  aliasArguments : List TypeId := []
  /-- The generic type of which this is an instantiation. -/
  target? : Option TypeId := none
  typeArguments : List TypeId := []
  typeParameters : List TypeId := []
  /-- The members of a union or intersection. -/
  constituents : List TypeId := []
  /-- The type whose keys are meant. -/
  keyOperand? : Option TypeId := none
  /-- The type of which a member is meant, and the type of the key. -/
  accessObject? : Option TypeId := none
  accessIndex? : Option TypeId := none
  constraint? : Option TypeId := none
  bases : List TypeId := []
  callSignatures : List SignatureId := []
  constructSignatures : List SignatureId := []
  /-- The members declared on the type itself, if the host tells them apart. -/
  declaredMembers? : Option (List SymbolId) := none
  /-- All members, the inherited ones included. -/
  members : List SymbolId := []
deriving DecidableEq, Repr

/-- What a host says about a symbol. -/
structure HostSymbol where
  name : String
  /-- The name with those of its owners, if that is another. -/
  qualifiedName? : Option String := none
  flags : SymbolFlags := .empty
  declarations : List Declaration := []
  /-- The type of a value with this name. -/
  type? : Option TypeId := none
  /-- The type that the symbol declares. -/
  declaredType? : Option TypeId := none
  aliasParameters : List TypeId := []
deriving DecidableEq, Repr

/-- What a host says about a signature. -/
structure HostSignature where
  typeParameters : List TypeId
  parameters : List SymbolId
  returnType : TypeId
deriving DecidableEq, Repr

instance : Inhabited HostType := ⟨{ flags := .empty }⟩

instance : Inhabited HostSymbol := ⟨{ name := "" }⟩

instance : Inhabited HostSignature := ⟨⟨[], [], default⟩⟩

namespace HostType

/-- The object and the index of an indexed access, if both are known. -/
def accessParts? (t : HostType) : Option (TypeId × TypeId) :=
  t.accessObject?.bind fun object => t.accessIndex?.map fun index => (object, index)

end HostType

namespace HostSymbol

/-- The name with those of its owners. -/
def qualifiedName (s : HostSymbol) : String := s.qualifiedName?.getD s.name

/-- The files that declare the symbol, in order of appearance, each once. -/
def originFiles (s : HostSymbol) : List String :=
  (s.declarations.map (·.file)).foldl
    (fun files file => if file ∈ files then files else files ++ [file]) []

end HostSymbol

/-- A type checker that answers questions. -/
structure Host where
  type : TypeId → HostType
  symbol : SymbolId → HostSymbol
  signature : SignatureId → HostSignature

end TypeBundle
