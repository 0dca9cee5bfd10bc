import Std.Data.TreeMap
import TypeBundle.Snapshot.Basic
/-!
# Loading a snapshot

A snapshot can be asked like a host once it is known to be complete: no id is used twice, every id
that an entry mentions has an entry of its own, and there is a global symbol. `Snapshot.load` looks for
the first fault in a fixed order: repeated ids of types, symbols and signatures, then the mentions in
the order of `Snapshot.mentions`, then the global symbol.
-/

namespace TypeBundle

/-- A mention of something by its id. -/
inductive Mention where
  | type (id : TypeId)
  | symbol (id : SymbolId)
  | signature (id : SignatureId)
deriving DecidableEq, Repr

/-- Where something is mentioned. -/
inductive Place where
  | type (id : TypeId)
  | symbol (name : String)
  | signature (id : SignatureId)
  | ambientModules
  | global
deriving DecidableEq, Repr

def Place.text : Place → String
  | type id => id.text
  | symbol name => "symbol '" ++ name ++ "'"
  | signature id => id.text
  | ambientModules => "ambient modules"
  | global => "global"

namespace Snapshot

/-- Why a snapshot cannot be loaded. -/
inductive Fault where
  | duplicateType (id : TypeId)
  | duplicateSymbol (id : SymbolId)
  | duplicateSignature (id : SignatureId)
  | unknown (place : Place) (mention : Mention)
  | missingGlobal
deriving DecidableEq, Repr

/-- The wording of a fault. -/
def Fault.message : Fault → String
  | duplicateType id => "Type " ++ wordText id.val ++ " is defined more than once"
  | duplicateSymbol id => "Symbol " ++ wordText id.val ++ " is defined more than once"
  | duplicateSignature id => "Signature " ++ wordText id.val ++ " is defined more than once"
  | unknown place (.type id) => place.text ++ " references unknown " ++ id.text
  | unknown place (.symbol id) => place.text ++ " references unknown " ++ id.text
  | unknown place (.signature id) => place.text ++ " references unknown " ++ id.text
  | missingGlobal => "Snapshot has no global symbol"

/-! ## Mentions -/

/-- What the entry of a type mentions. -/
def typeMentions (t : HostType) : List Mention :=
  (t.aliasArguments ++ t.typeArguments ++ t.typeParameters ++ t.constituents ++ t.bases ++
    t.target?.toList ++ t.keyOperand?.toList ++ t.accessObject?.toList ++ t.accessIndex?.toList ++
    t.constraint?.toList).map .type ++
  (t.members ++ t.declaredMembers?.getD [] ++ t.symbol?.toList ++ t.alias?.toList).map .symbol ++
  (t.callSignatures ++ t.constructSignatures).map .signature

/-- What the entry of a symbol mentions. -/
def symbolMentions (s : HostSymbol) : List Mention :=
  (s.aliasParameters ++ s.type?.toList ++ s.declaredType?.toList).map .type

/-- What the entry of a signature mentions. -/
def signatureMentions (s : HostSignature) : List Mention :=
  (s.typeParameters ++ [s.returnType]).map .type ++ s.parameters.map .symbol

/-- All mentions with their places, in the order in which they are checked. -/
def mentions (s : Snapshot) : List (Place × Mention) :=
  s.types.flatMap (fun e => (typeMentions e.facts).map (Place.type e.id, ·)) ++
  s.symbols.flatMap (fun e => (symbolMentions e.facts).map (Place.symbol e.facts.name, ·)) ++
  s.signatures.flatMap (fun e => (signatureMentions e.facts).map (Place.signature e.id, ·)) ++
  s.ambientModules.map (fun id => (.ambientModules, .symbol id))

/-! ## Looking entries up -/

/-- The facts of entries by the word of their id. -/
abbrev Index (α : Type) := Std.TreeMap UInt64 α

/-- The index of entries with different ids; the first repeated id is refused. -/
def indexOf {ι α : Type} (word : ι → UInt64) : List (Entry ι α) → Except ι (Index α) :=
  go ∅
where
  /-- Adds the entries to those indexed already. -/
  go (index : Index α) : List (Entry ι α) → Except ι (Index α)
    | [] => .ok index
    | e :: es => if index.contains (word e.id) then .error e.id else go (index.insert (word e.id) e.facts) es

/-- A snapshot that can be asked, with its entries by id. -/
structure Loaded where
  snapshot : Snapshot
  types : Index HostType
  symbols : Index HostSymbol
  signatures : Index HostSignature
  global : SymbolId

/-- Whether the thing that is mentioned has an entry. -/
def known (types : Index HostType) (symbols : Index HostSymbol) (signatures : Index HostSignature) :
    Mention → Bool
  | .type id => types.contains id.val
  | .symbol id => symbols.contains id.val
  | .signature id => signatures.contains id.val

/-- Loads a snapshot, or says what is wrong with it. -/
def load (s : Snapshot) : Except Fault Loaded := do
  let types ← (indexOf TypeId.val s.types).mapError .duplicateType
  let symbols ← (indexOf SymbolId.val s.symbols).mapError .duplicateSymbol
  let signatures ← (indexOf SignatureId.val s.signatures).mapError .duplicateSignature
  match s.mentions.find? fun (_, mention) => !known types symbols signatures mention with
  | some (place, mention) => .error (.unknown place mention)
  | none =>
    match s.global? with
    | none => .error .missingGlobal
    | some global =>
      if symbols.contains global.val then .ok ⟨s, types, symbols, signatures, global⟩
      else .error (.unknown .global (.symbol global))

namespace Loaded

/-- The host that a loaded snapshot is. What it has no entry for is never asked. -/
def host (l : Loaded) : Host where
  type id := (l.types[id.val]?).getD default
  symbol id := (l.symbols[id.val]?).getD default
  signature id := (l.signatures[id.val]?).getD default

def type? (l : Loaded) (id : TypeId) : Option HostType := l.types[id.val]?

def symbol? (l : Loaded) (id : SymbolId) : Option HostSymbol := l.symbols[id.val]?

def signature? (l : Loaded) (id : SignatureId) : Option HostSignature := l.signatures[id.val]?

end Loaded

end Snapshot

end TypeBundle
