import Std.Data.TreeMap
import Std.Data.TreeSet
import TypeBundle.Bundle.Basic
/-!
# References between records

A record refers to another if its body names it anywhere. Records reach what they refer to, and what
that reaches. The recursive groups of a bundle are the classes of records that reach each other: a
record alone is a group only if it refers to itself.

Records that share an id count as one node with the references of all of them.
-/

namespace TypeBundle.Bundle

/-- Puts an id in its place in an ascending list, once. -/
def insertId (id : BundleId) : List BundleId → List BundleId
  | [] => [id]
  | a :: as => if id < a then id :: a :: as else if id = a then a :: as else a :: insertId id as

/-- The ids of a list in ascending order, each once. -/
def ascending (ids : List BundleId) : List BundleId := ids.foldl (fun done id => insertId id done) []

/-- The records that the records with this id refer to, in ascending order. -/
def referencesFrom (b : Bundle) (id : BundleId) : List BundleId :=
  ascending (((b.records.filter (·.id = id)).flatMap (·.body.references)).filter (· ∈ b.ids))

/-- A graph of ids, each with what it points at. -/
abbrev Edges := Std.TreeMap UInt32 (List BundleId)

/-- The references between the records of a bundle. -/
def edges (b : Bundle) : Edges :=
  b.ids.foldl (fun g id => g.insert id.val (b.referencesFrom id)) ∅

/-- What an id points at. -/
def Edges.targets (g : Edges) (id : BundleId) : List BundleId := (g[id.val]?).getD []

/-- Adds to what is found all that can be reached from the list by way of ids that are not found yet.
Each step takes one id off the list, and an id is expanded at most once. -/
def Edges.explore (g : Edges) : Nat → List BundleId → Std.TreeSet UInt32 → Std.TreeSet UInt32
  | 0, _, found => found
  | _ + 1, [], found => found
  | steps + 1, id :: rest, found =>
    if id.val ∈ found then Edges.explore g steps rest found
    else Edges.explore g steps (g.targets id ++ rest) (found.insert id.val)

/-- How many steps an exploration may take: every pointer is followed at most once. -/
def Edges.size (g : Edges) : Nat := g.values.foldl (fun n targets => n + targets.length + 1) 0

/-- What an id reaches in one step or more. -/
def Edges.reachable (g : Edges) (id : BundleId) : Std.TreeSet UInt32 :=
  g.explore (g.size + (g.targets id).length + 1) (g.targets id) ∅

/-- The groups of ids that reach each other, each in ascending order, in the order of their first
ids. -/
def Edges.groups (g : Edges) : List (List BundleId) :=
  let reach := g.map fun id _ => g.reachable ⟨id⟩
  let reaches (a c : UInt32) : Bool := (reach[a]?).any (·.contains c)
  g.keys.filterMap fun a =>
    let group := g.keys.filter fun c => reaches a c && reaches c a
    if group.head? = some a then some (group.map BundleId.mk) else none

/-- The recursive groups of a bundle. -/
def groups (b : Bundle) : List (List BundleId) := b.edges.groups

end TypeBundle.Bundle
