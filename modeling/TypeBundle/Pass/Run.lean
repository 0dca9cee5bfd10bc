import TypeBundle.Pass.Walk
import TypeBundle.Snapshot.Load
/-!
# Passes

A pass walks the global scope and the ambient modules of a host, in order, and freezes the table of
records. How deep it must be allowed to go is known from a snapshot: each time a walk goes down, it
has started an identity of its own or taken a step to a part of a type. There are at most as many
identities as types and symbols, and a chain of parts without repetition is no longer than there are
types.
-/

namespace TypeBundle

namespace Walk

/-- The type of a symbol, walked. -/
def root (host : Host) (settings : Settings) (depth : Nat) (missing : String → Unexpected)
    (id : SymbolId) : Walk TypeExpr := do
  let symbol := host.symbol id
  resolve host settings depth (← orUnexpected (missing symbol.name) symbol.type?)

/-- An ambient module with its type. -/
def ambientModule (host : Host) (settings : Settings) (depth : Nat) (id : SymbolId) :
    Walk AmbientModule :=
  return ⟨(host.symbol id).name, ← root host settings depth .moduleWithoutType id⟩

/-- The finished records in order, if all are finished. -/
def freeze : Walk (List Record) := do
  match (← get).table.freeze with
  | .ok records => return records
  | .error id => fail (.incompleteRecord id)

/-- A whole pass. -/
def bundle (host : Host) (settings : Settings) (depth : Nat) (global : SymbolId)
    (modules : List SymbolId) : Walk Bundle := do
  let globalType ← root host settings depth .globalWithoutType global
  let ambientModules ← modules.mapM (ambientModule host settings depth)
  return ⟨globalType, ambientModules, ← freeze⟩

/-- The answer of a walk from given progress, and the progress it leaves. -/
def runFrom {α : Type} (p : Progress) (w : Walk α) : Except Stop α × Progress :=
  match w.run p with
  | .ok a p => (.ok a, p)
  | .error e p => (.error e, p)

/-- The answer of a walk from the start. -/
def answer {α : Type} (w : Walk α) : Except Stop α := (runFrom .start w).1

end Walk

namespace Snapshot.Loaded

/-- How deep a walk of a loaded snapshot can go. -/
def depth (l : Loaded) : Nat :=
  (l.snapshot.types.length + l.snapshot.symbols.length + 1) * (l.snapshot.types.length + 1) + 1

/-- The bundle of a loaded snapshot for a global symbol and ambient modules. -/
def bundleOf (l : Loaded) (settings : Settings) (global : SymbolId) (modules : List SymbolId) :
    Except Stop Bundle :=
  Walk.answer (Walk.bundle l.host settings l.depth global modules)

/-- The bundle of a loaded snapshot. -/
def bundle (l : Loaded) (settings : Settings) : Except Stop Bundle :=
  l.bundleOf settings l.global l.snapshot.ambientModules

end Snapshot.Loaded

end TypeBundle
