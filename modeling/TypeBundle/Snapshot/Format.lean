import TypeBundle.Snapshot.Wire
import TypeBundle.Text.Blank
/-!
# Formats of snapshot files

The extension of a file name decides how a snapshot is read: `yaml` and `yml` stand for YAML, all else
for JSON. A name that begins with its only point has no extension.
-/

namespace TypeBundle

/-- How a snapshot is written down. -/
inductive SnapshotFormat where
  | json
  | yaml
deriving DecidableEq, Repr

/-- The last component of a path that is a name. Steps to the same directory do not count; a step to
the parent has no name. -/
def fileName? (path : String) : Option (List Char) :=
  match ((Text.pieces '/' path.toList).filter fun p => p ≠ [] ∧ p ≠ ['.']).getLast? with
  | some ['.', '.'] => none
  | name? => name?

/-- What stands after the last point of the file name, unless the name begins there. -/
def extension? (path : String) : Option String :=
  match (fileName? path).bind (Text.cutLast? '.') with
  | some ([], _) => none
  | some (_, ext) => some (String.ofList ext)
  | none => none

namespace SnapshotFormat

/-- The format of a file. -/
def ofPath (path : String) : SnapshotFormat :=
  match extension? path with
  | some "yaml" => yaml
  | some "yml" => yaml
  | _ => json

/-- Reads a snapshot. -/
def read? : SnapshotFormat → String → Option Snapshot
  | json, text => Snapshot.readJson? text
  | yaml, text => Snapshot.readYaml? text

/-- Writes a snapshot for people to read. -/
def write : SnapshotFormat → Snapshot → String
  | json, s => s.writeJson true
  | yaml, s => s.writeYaml

end SnapshotFormat

end TypeBundle
