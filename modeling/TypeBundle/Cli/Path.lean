import TypeBundle.Text.Blank
/-!
# Paths

A path is cut into pieces by slashes. Empty pieces and steps to the same directory count for nothing,
except a step that stands first. `parent?` is the path without its last piece that counts.
-/

namespace TypeBundle.Cli.Path

/-- The pieces of a path. -/
def pieces (path : String) : List (List Char) := Text.pieces '/' path.toList

/-- Whether a piece counts, at this place among the pieces. -/
def counts (piece : List Char) (place : Nat) : Bool :=
  piece ≠ [] && (piece ≠ ['.'] || place == 0)

/-- The number of pieces up to the last one that counts. -/
def extent (pieces : List (List Char)) : Nat :=
  ((pieces.zipIdx.filter fun (p, i) => counts p i).getLast?.map (·.2 + 1)).getD 0

/-- The directory that a path leads through last; there is none if nothing in the path counts. The
parent of a single piece is empty. -/
def parent? (path : String) : Option String :=
  let ps := pieces path
  match extent ps with
  | 0 => none
  | n + 1 =>
    let outer := ps.take (extent (ps.take n))
    if outer = [] ∧ path.toList.head? = some '/' then some "/"
    else some (String.ofList (['/'].intercalate outer))

end TypeBundle.Cli.Path
