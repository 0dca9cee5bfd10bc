import TypeBundle.Bundle.Graph
import TypeBundle.Bundle.Wire
/-!
# Reports on bundles

Counts over the records and references of a bundle, and what a check reports: the counts with the
recursive groups, as JSON or as a summary for people.
-/

namespace TypeBundle

/-- Counts over a bundle. Every record is counted as an alias, as without name, as a class or as an
interface. -/
structure Stats where
  records : Nat
  aliases : Nat
  classes : Nat
  interfaces : Nat
  anonymous : Nat
  ambientModules : Nat
  /-- How often a record is named from a root. -/
  references : Nat
  /-- How many of these have type arguments. -/
  genericReferences : Nat
  recursiveGroups : Nat
deriving DecidableEq, Repr

/-- What a record is counted as. -/
inductive RecordClass where
  | alias_
  | anonymous
  | class_
  | interface
deriving DecidableEq, Repr

namespace Record

def isClass (r : Record) : Bool := r.body.shape?.any (·.isClass)

def class_ (r : Record) : RecordClass :=
  if r.isAlias then .alias_
  else if r.name?.isNone then .anonymous
  else if r.isClass then .class_
  else .interface

end Record

namespace TypeExpr

/-- Whether the expression names a record with type arguments. -/
def isApplication : TypeExpr → Bool
  | application _ _ => true
  | _ => false

end TypeExpr

namespace Bundle

/-- The counts of a bundle with these recursive groups. -/
def statsWith (b : Bundle) (groups : List (List BundleId)) : Stats :=
  let ofClass c := (b.records.filter fun r => r.class_ = c).length
  let nodes := b.roots.flatMap (·.subterms)
  { records := b.records.length
    aliases := ofClass .alias_
    classes := ofClass .class_
    interfaces := ofClass .interface
    anonymous := ofClass .anonymous
    ambientModules := b.ambientModules.length
    references := (nodes.filter (·.target?.isSome)).length
    genericReferences := (nodes.filter (·.isApplication)).length
    recursiveGroups := groups.length }

def stats (b : Bundle) : Stats := b.statsWith b.groups

end Bundle

open Json (Value)

/-- The counts by name. -/
def Stats.encode (s : Stats) : Value :=
  .object [
    ("records", .count s.records), ("aliases", .count s.aliases), ("classes", .count s.classes),
    ("interfaces", .count s.interfaces), ("anonymous", .count s.anonymous),
    ("ambient_modules", .count s.ambientModules), ("references", .count s.references),
    ("generic_references", .count s.genericReferences),
    ("recursive_groups", .count s.recursiveGroups)]

/-- The groups as lists of ids. -/
def encodeGroups (groups : List (List BundleId)) : Value :=
  .array (groups.map fun ids => .array (ids.map TypeExpr.encodeId))

/-- What a check of a sound bundle reports. -/
structure Report where
  stats : Stats
  groups : List (List BundleId)
deriving DecidableEq, Repr

namespace Report

def encode (r : Report) : Value :=
  .object [("stats", r.stats.encode), ("recursiveGroups", encodeGroups r.groups)]

/-- A count after its label. -/
def line (label : String) (n : Nat) : String := label ++ String.ofList (Text.decimal n) ++ "\n"

/-- The ids of a group on a line. -/
def groupLine (ids : List BundleId) : String :=
  "  [" ++ ", ".intercalate (ids.map (·.text)) ++ "]\n"

/-- The report for people. -/
def summary (r : Report) : String :=
  let s := r.stats
  line "records:            " s.records ++
  line "  interfaces:       " s.interfaces ++
  line "  classes:          " s.classes ++
  line "  aliases:          " s.aliases ++
  line "  anonymous:        " s.anonymous ++
  line "ambient modules:    " s.ambientModules ++
  line "references:         " s.references ++
  line "  generic:          " s.genericReferences ++
  line "recursive groups:   " s.recursiveGroups ++
  String.join (r.groups.map groupLine)

end Report

namespace Bundle

/-- Checks a bundle and reports on it. -/
def report (b : Bundle) : Except Fault Report := do
  b.check
  let groups := b.groups
  return ⟨b.statsWith groups, groups⟩

end Bundle

end TypeBundle
