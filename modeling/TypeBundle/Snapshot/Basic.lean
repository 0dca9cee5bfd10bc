import TypeBundle.Host.Basic
/-!
# Snapshots

A snapshot records everything a type checker says: an entry for each type, symbol and signature, the
symbol of the global scope, and the symbols of the ambient modules in the order of the output.
-/

namespace TypeBundle

/-- What a host says about the thing with an id. -/
structure Entry (ι α : Type) where
  id : ι
  facts : α
deriving DecidableEq, Repr

abbrev TypeEntry := Entry TypeId HostType
abbrev SymbolEntry := Entry SymbolId HostSymbol
abbrev SignatureEntry := Entry SignatureId HostSignature

/-- A recorded host. -/
structure Snapshot where
  types : List TypeEntry
  symbols : List SymbolEntry
  signatures : List SignatureEntry
  global? : Option SymbolId
  ambientModules : List SymbolId
deriving DecidableEq, Repr

instance : Inhabited Snapshot := ⟨⟨[], [], [], none, []⟩⟩

end TypeBundle
