import TypeBundle.Bundle.Report
import TypeBundle.Cli.Arguments
import TypeBundle.Cli.Files
import TypeBundle.Config
import TypeBundle.Pass.Run
import TypeBundle.Snapshot.Format
/-!
# Commands

`resolve` turns a snapshot file into a bundle, `check` reports on a bundle file. `run` takes the
arguments of the command line and says what is printed, why it failed and what the exit code is: 1 if
the program failed, 2 if the arguments were wrong.
-/

namespace TypeBundle.Cli

/-- What went wrong. -/
inductive Trouble where
  | configuration (path : String)
  | snapshot (path : String)
  | pass
  | directory (path : String)
  | output (path : String)
  | unreadable (path : String)
  | malformed (path : String)
  | unsound
deriving DecidableEq, Repr

/-- The wording of a failure. -/
def Trouble.message : Trouble → String
  | configuration path => "Failed to load configuration from " ++ path
  | snapshot path => "Failed to load snapshot " ++ path
  | pass => "Type resolution failed"
  | directory path => "Failed to create " ++ path
  | output path => "Failed to write bundle to " ++ path
  | unreadable path => "Failed to read " ++ path
  | malformed path => "Failed to parse bundle " ++ path
  | unsound => "Bundle failed validation"

section Commands

variable {m : Type → Type} [Monad m] (files : FileAccess m)

/-- What is read from a file. -/
def readAs {α : Type} (path : String) (trouble : Trouble) (read? : String → Option α) :
    ExceptT Trouble m α := do
  match (← files.read path).bind read? with
  | some a => return a
  | none => throw trouble

/-- Fails unless something could be done. -/
def must (trouble : Trouble) (done : m Bool) : ExceptT Trouble m Unit := do
  unless ← done do throw trouble

def loadConfig (path? : Option String) : ExceptT Trouble m Config :=
  match path? with
  | none => return .default
  | some path => readAs files path (.configuration path) fun text => (Config.read text).toOption

def loadSnapshot (path : String) : ExceptT Trouble m Snapshot.Loaded :=
  readAs files path (.snapshot path) fun text =>
    ((SnapshotFormat.ofPath path).read? text).bind fun s => s.load.toOption

/-- Writes a text into a file, whose directory comes to be if it does not exist. -/
def store (path text : String) : ExceptT Trouble m Unit := do
  match Path.parent? path with
  | none | some "" => pure ()
  | some directory => must (.directory directory) (files.createDirectories directory)
  must (.output path) (files.write path text)

/-- Turns a snapshot into a bundle, which is printed if there is no file for it. The configuration is
loaded first. -/
def resolve (snapshot : String) (output? config? : Option String) (pretty : Bool) :
    ExceptT Trouble m String := do
  let config ← loadConfig files config?
  let l ← loadSnapshot files snapshot
  match l.bundle config.settings with
  | .error _ => throw .pass
  | .ok b =>
    let text := b.write (pretty || config.pretty)
    match output? with
    | none => return text ++ "\n"
    | some path =>
      store files path text
      return ""

/-- Reports on a bundle. -/
def check (input : String) (json : Bool) : ExceptT Trouble m String := do
  let some text ← files.read input | throw (.unreadable input)
  let some b := Bundle.read? text | throw (.malformed input)
  match b.report with
  | .error _ => throw .unsound
  | .ok report => return if json then report.encode.write .pretty ++ "\n" else report.summary

end Commands

/-! ## Help -/

def version : String := "predef 0.1.0\n"

def helpText : Scope → String
  | .program => "Flatten a host type graph into a deduplicated type bundle

Usage: predef [OPTIONS] <COMMAND>

Commands:
  resolve  Resolve a host snapshot into a bundle
  check    Validate a bundle and print statistics
  help     Print this message or the help of the given subcommand(s)

Options:
  -v, --verbose  Enable verbose output
  -d, --debug    Enable debug output with targets
  -h, --help     Print help
  -V, --version  Print version
"
  | .resolve => "Resolve a host snapshot into a bundle

Usage: predef resolve [OPTIONS] --snapshot <SNAPSHOT>

Options:
  -s, --snapshot <SNAPSHOT>  Snapshot file (.json, .yaml or .yml)
  -v, --verbose              Enable verbose output
  -o, --output <OUTPUT>      Output file. Prints to stdout when omitted
  -d, --debug                Enable debug output with targets
  -c, --config <CONFIG>      TOML configuration file
      --pretty               Pretty-print the JSON
  -h, --help                 Print help
"
  | .check => "Validate a bundle and print statistics

Usage: predef check [OPTIONS] --input <INPUT>

Options:
  -i, --input <INPUT>  Bundle JSON file
  -v, --verbose        Enable verbose output
  -d, --debug          Enable debug output with targets
      --json           Print the report as JSON
  -h, --help           Print help
"

/-! ## The program -/

/-- What the program leaves behind. -/
structure Outcome where
  code : UInt32
  stdout : String
  failure? : Option String
deriving DecidableEq, Repr

def Outcome.ofResult : Except Trouble String → Outcome
  | .ok text => ⟨0, text, none⟩
  | .error trouble => ⟨1, "", some trouble.message⟩

/-- Runs the program. -/
def run {m : Type → Type} [Monad m] (files : FileAccess m) (arguments : List String) : m Outcome :=
  match Invocation.ofArguments? arguments with
  | none => return ⟨2, "", none⟩
  | some (.resolve snapshot output? config? pretty) =>
    Outcome.ofResult <$> (resolve files snapshot output? config? pretty).run
  | some (.check input json) => Outcome.ofResult <$> (check files input json).run
  | some (.help scope) => return ⟨0, helpText scope, none⟩
  | some .version => return ⟨0, version, none⟩

end TypeBundle.Cli
