/-!
# Values of TOML

A table is built up piece by piece: by headers, by dotted keys and by inline tables. What a table may
still be extended by depends on how it came to be, so each table keeps that. `Fields.assign?` sets one
key, `Fields.openTable?` and `Fields.openElement?` do what headers do; nothing is ever defined twice.

Settings hold no numbers and no dates, so it is enough to know that there is one.
-/

namespace TypeBundle.Toml

/-- How a table came to be. -/
inductive Origin where
  /-- By a header of its own. -/
  | header
  /-- By a header of a table within it. -/
  | outline
  /-- By a dotted key. -/
  | dotted
  /-- Between braces. -/
  | inline
deriving DecidableEq, Repr

inductive Value where
  | string (s : String)
  | boolean (b : Bool)
  | number
  /-- A date, a time of day, or both. -/
  | moment
  | array (items : List Value)
  | table (origin : Origin) (fields : List (String × Value))
  /-- Tables that share a header, of which the last is still open. -/
  | elements (earlier : List (List (String × Value))) (last : List (String × Value))

instance : Inhabited Value := ⟨.number⟩

abbrev Fields := List (String × Value)

namespace Fields

/-- The value of a key. -/
def get? (fields : Fields) (name : String) : Option Value := List.lookup name fields

/-- Puts another value in place of the value of a key, or a first one. -/
def update? (name : String) (f : Option Value → Option Value) : Fields → Option Fields
  | [] => (f none).map fun v => [(name, v)]
  | (other, v) :: fields =>
    if other = name then (f (some v)).map fun w => (name, w) :: fields
    else (update? name f fields).map ((other, v) :: ·)

/-- Gives a key its value; it must have none. -/
def insert? (name : String) (v : Value) (fields : Fields) : Option Fields :=
  update? name (fun old? => if old?.isSome then none else some v) fields

/-- Changes the table with this path. Tables that do not exist come to be, and of tables that share a
header the last is meant. -/
def descend? (f : Fields → Option Fields) : List String → Fields → Option Fields
  | [], fields => f fields
  | name :: path, fields =>
    update? name (fun
      | none => (descend? f path []).map (.table .outline)
      | some (.table .inline _) => none
      | some (.table origin inner) => (descend? f path inner).map (.table origin)
      | some (.elements earlier last) => (descend? f path last).map (.elements earlier)
      | some _ => none) fields

/-- Gives a dotted key its value. The last table on the way must be one of dotted keys, and no table on
the way may have a header of its own. -/
def assign? (name : String) (v : Value) : List String → Fields → Option Fields
  | [], fields => insert? name v fields
  | [last], fields =>
    update? last (fun
      | none => some (.table .dotted [(name, v)])
      | some (.table .dotted inner) => (insert? name v inner).map (.table .dotted)
      | some _ => none) fields
  | first :: path, fields =>
    update? first (fun
      | none => (assign? name v path []).map (.table .dotted)
      | some (.table .dotted inner) => (assign? name v path inner).map (.table .dotted)
      | some (.table .outline inner) => (assign? name v path inner).map (.table .outline)
      | some (.elements earlier last) => (assign? name v path last).map (.elements earlier)
      | some _ => none) fields

/-- Gives a table its header. -/
def openTable? (name : String) (fields : Fields) : Option Fields :=
  update? name (fun
    | none => some (.table .header [])
    | some (.table .outline inner) => some (.table .header inner)
    | some _ => none) fields

/-- Begins another one of the tables that share a header. -/
def openElement? (name : String) (fields : Fields) : Option Fields :=
  update? name (fun
    | none => some (.elements [] [])
    | some (.elements earlier last) => some (.elements (last :: earlier) [])
    | some _ => none) fields

end Fields

end TypeBundle.Toml
