import TypeBundle.Cli.Path
/-!
# Files

What a command needs of files, and a tree of files in memory that offers it. Paths lead through
directories that must exist, also where the next step leads back.
-/

namespace TypeBundle.Cli

/-- Access to files. -/
structure FileAccess (m : Type → Type) where
  /-- The text of a file, if it can be read. -/
  read : String → m (Option String)
  /-- Creates a directory and those around it; tells whether they exist now. -/
  createDirectories : String → m Bool
  /-- Puts a text into a file; tells whether it could. -/
  write : String → String → m Bool

/-- Files by the directories they are in and their name. -/
structure Tree where
  files : List (List String × String)
  /-- Directories that exist even without files. -/
  directories : List (List String)
deriving DecidableEq, Repr

namespace Tree

/-- The names on the way of a path that has no steps back. -/
def namesOf (path : String) : List String :=
  ((Path.pieces path).filter fun p => p ≠ [] ∧ p ≠ ['.']).map String.ofList

/-- The tree of these files. -/
def ofFiles (files : List (String × String)) : Tree :=
  ⟨files.map fun (path, text) => (namesOf path, text), []⟩

def file? (t : Tree) (names : List String) : Option String := t.files.lookup names

def isDirectory (t : Tree) (names : List String) : Bool :=
  names.isEmpty || t.directories.contains names ||
    t.files.any fun (path, _) => names.isPrefixOf path && names.length < path.length

/-- Takes one step from a directory to one that exists. -/
def enter? (t : Tree) (directory : List String) (piece : List Char) : Option (List String) :=
  if piece = [] ∨ piece = ['.'] then some directory
  else if piece = ['.', '.'] then (if directory = [] then none else some directory.dropLast)
  else
    let inner := directory ++ [String.ofList piece]
    if t.isDirectory inner then some inner else none

/-- The place that a path names: a name in a directory that exists. Paths that lead out of the tree,
and those that name a directory as such, have none. -/
def locate? (t : Tree) (path : String) : Option (List String) := do
  let ps := Path.pieces path
  if path.toList.head? = some '/' then none
  let directory ← ps.dropLast.foldlM t.enter? []
  match ps.getLast? with
  | none => none
  | some name =>
    if name = [] ∨ name = ['.'] ∨ name = ['.', '.'] then none
    else return directory ++ [String.ofList name]

def read (t : Tree) (path : String) : Option String := (t.locate? path).bind t.file?

/-- The tree with a text in a file. -/
def write? (t : Tree) (path text : String) : Option Tree := do
  let names ← t.locate? path
  if t.isDirectory names then none
  else return { t with files := (names, text) :: t.files.filter (·.1 ≠ names) }

/-- Takes one step from a directory to one that is created if it does not exist. -/
def enterNew? (place : Tree × List String) (piece : List Char) : Option (Tree × List String) :=
  let (t, directory) := place
  match t.enter? directory piece with
  | some inner => some (t, inner)
  | none =>
    let inner := directory ++ [String.ofList piece]
    if piece = ['.', '.'] ∨ (t.file? inner).isSome then none
    else some ({ t with directories := inner :: t.directories }, inner)

/-- The tree with a directory and those around it. -/
def createDirectories? (t : Tree) (path : String) : Option Tree :=
  if path.toList.head? = some '/' then none
  else ((Path.pieces path).foldlM enterNew? (t, [])).map (·.1)

/-- Changes the state if there is a next one; tells whether there is. -/
def change (next? : Tree → Option Tree) : StateM Tree Bool := fun t =>
  match next? t with
  | some t => (true, t)
  | none => (false, t)

/-- Access to the files of a tree. -/
def access : FileAccess (StateM Tree) where
  read path := return (← get).read path
  createDirectories path := change (·.createDirectories? path)
  write path text := change (·.write? path text)

/-- The files that are new or changed since `before`, by path. -/
def since (t before : Tree) : List (String × String) :=
  (t.files.filter fun (names, text) => before.file? names != some text).map fun (names, text) =>
    ("/".intercalate names, text)

end Tree

end TypeBundle.Cli
