import TypeBundle.Cli.Command
/-!
# The program

Runs the commands on the files of the system. Failures go to standard error.
-/

namespace TypeBundle

/-- Whether an action could be done. -/
def succeeds (action : IO Unit) : IO Bool := do
  match ← action.toBaseIO with
  | .ok () => return true
  | .error _ => return false

/-- Access to the files of the system. -/
def systemFiles : Cli.FileAccess IO where
  read path := do
    match ← (IO.FS.readFile path).toBaseIO with
    | .ok text => return some text
    | .error _ => return none
  createDirectories path := succeeds (IO.FS.createDirAll path)
  write path text := succeeds (IO.FS.writeFile path text)

end TypeBundle

def main (arguments : List String) : IO UInt32 := do
  let outcome ← TypeBundle.Cli.run TypeBundle.systemFiles arguments
  IO.print outcome.stdout
  match outcome.failure? with
  | some message => IO.eprintln ("Error: " ++ message)
  | none => if outcome.code = 2 then IO.eprintln "error: wrong usage, try '--help'"
  return outcome.code
