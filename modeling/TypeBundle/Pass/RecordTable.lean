import Std.Data.TreeMap
import TypeBundle.Bundle.Basic
/-!
# The table of records

A slot is reserved for a record before its parts are looked at, and filled when it is finished. A slot
is filled at most once. The table is complete when no slot is empty; its records then stand in
ascending order of their ids.
-/

namespace TypeBundle

/-- The slots of records, empty ones included. -/
structure RecordTable where
  slots : Std.TreeMap UInt32 (Option Record)

namespace RecordTable

def empty : RecordTable := ⟨∅⟩

instance : Inhabited RecordTable := ⟨empty⟩

/-- Reserves a slot, unless there is one. -/
def reserve (t : RecordTable) (id : BundleId) : RecordTable := ⟨t.slots.insertIfNew id.val none⟩

/-- The finished record with the id. -/
def get? (t : RecordTable) (id : BundleId) : Option Record := (t.slots[id.val]?).join

/-- Whether there is a slot for the id. -/
def contains (t : RecordTable) (id : BundleId) : Bool := t.slots.contains id.val

/-- Whether the record with the id is finished. -/
def isComplete (t : RecordTable) (id : BundleId) : Bool := (t.get? id).isSome

/-- Finishes a record, unless the record with its id is finished. -/
def fill (t : RecordTable) (record : Record) : RecordTable :=
  if t.isComplete record.id then t else ⟨t.slots.insert record.id.val (some record)⟩

/-- How many slots there are. -/
def size (t : RecordTable) : Nat := t.slots.size

/-- The records in ascending order of their ids, or the first id whose slot is empty. -/
def freeze (t : RecordTable) : Except BundleId (List Record) :=
  t.slots.toList.mapM fun (id, slot) =>
    match slot with
    | some record => .ok record
    | none => .error ⟨id⟩

end RecordTable

end TypeBundle
