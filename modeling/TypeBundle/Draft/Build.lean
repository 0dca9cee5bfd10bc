import TypeBundle.Draft.Basic
/-!
# From a draft to a snapshot

The ids of a snapshot are the positions of the draft. A type with bases gets its effective members:
its own, then those of its bases in order, except for names that it has already. A base is looked at
through its target, and a type that is met again on the way down adds nothing.
-/

namespace TypeBundle.Draft

/-- The members declared on a type, or all of them if they are not told apart. -/
def ownMembers (t : HostType) : List SymbolId := t.declaredMembers?.getD t.members

/-- Adds a member unless the name is taken. -/
def inherit (d : Draft) (members : List SymbolId) (m : SymbolId) : Option (List SymbolId) := do
  let s ← d.symbol? m
  let names ← members.mapM fun n => (d.symbol? n).map (·.name)
  return if s.name ∈ names then members else members ++ [m]

/-- The effective members of a type, looking at most `depth` bases down; `path` holds the types on the
way to this one. -/
def effective (d : Draft) : Nat → List TypeId → TypeId → Option (List SymbolId)
  | 0, _, _ => none
  | depth + 1, path, id =>
    if id ∈ path then some []
    else do
      let t ← d.type? id
      t.bases.foldlM (fun members base => do
        let b ← d.type? base
        let inherited ← effective d depth (id :: path) (b.target?.getD base)
        inherited.foldlM d.inherit members) (ownMembers t)

/-- The entry of a type in the snapshot. A way down without repetition is no longer than there are
types. -/
def typeFacts (d : Draft) (id : TypeId) (t : HostType) : Option HostType :=
  if t.bases.isEmpty then some t
  else (d.effective (d.types.size + 1) [] id).map fun members => { t with members }

/-- The entries with their positions for ids. -/
def number {ι α : Type} (id : UInt64 → ι) (facts : List α) : List (Entry ι α) :=
  facts.zipIdx.map fun (a, n) => ⟨id n.toUInt64, a⟩

/-- The snapshot of a draft, unless a base is missing. -/
def snapshot? (d : Draft) : Option Snapshot := do
  let types ← (number TypeId.mk d.types.toList).mapM fun e =>
    (d.typeFacts e.id e.facts).map fun facts => ({ e with facts } : TypeEntry)
  return {
    types
    symbols := number SymbolId.mk d.symbols.toList
    signatures := number SignatureId.mk d.signatures.toList
    global? := d.global?
    ambientModules := d.ambientModules.toList }

end TypeBundle.Draft
