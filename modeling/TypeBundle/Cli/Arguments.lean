/-!
# Arguments of the command line

The program has the commands `resolve` and `check`; each has options of its own, and those that stand
before the command are the program's. `Invocation.ofArguments?` says what the arguments ask for, unless
they are wrong: an option that is unknown in its place or given twice, a value that is missing or empty,
a value for an option that has none, or anything that is no option. A value is the next argument, where
it must not look like an option, or stands in the same one: `--output=x`, `-o=x` and `-ox` are the same.
Options of one letter may share an argument.
-/

namespace TypeBundle.Cli

/-- Where an option stands. -/
inductive Scope where
  | program
  | resolve
  | check
deriving DecidableEq, Repr

/-- An option without a value. -/
inductive Switch where
  | verbose
  | debug
  | pretty
  | json
deriving DecidableEq, Repr

/-- An option with a value. -/
inductive Parameter where
  | snapshot
  | output
  | config
  | input
deriving DecidableEq, Repr

/-- What an option does. -/
inductive OptionKind where
  | switch (s : Switch)
  | parameter (p : Parameter)
  | help
  | version
deriving DecidableEq, Repr

structure OptionSpec where
  kind : OptionKind
  short? : Option Char
  long : String
deriving DecidableEq, Repr

namespace Scope

/-- The options that may stand anywhere. -/
def common : List OptionSpec :=
  [⟨.switch .verbose, some 'v', "verbose"⟩, ⟨.switch .debug, some 'd', "debug"⟩, ⟨.help, some 'h', "help"⟩]

def options : Scope → List OptionSpec
  | program => common ++ [⟨.version, some 'V', "version"⟩]
  | resolve =>
    common ++ [⟨.parameter .snapshot, some 's', "snapshot"⟩, ⟨.parameter .output, some 'o', "output"⟩,
      ⟨.parameter .config, some 'c', "config"⟩, ⟨.switch .pretty, none, "pretty"⟩]
  | check => common ++ [⟨.parameter .input, some 'i', "input"⟩, ⟨.switch .json, none, "json"⟩]

def long? (scope : Scope) (name : List Char) : Option OptionKind :=
  (scope.options.find? (·.long.toList == name)).map (·.kind)

def short? (scope : Scope) (letter : Char) : Option OptionKind :=
  (scope.options.find? (·.short? == some letter)).map (·.kind)

end Scope

/-- What the arguments ask for. -/
inductive Invocation where
  | resolve (snapshot : String) (output? config? : Option String) (pretty : Bool)
  | check (input : String) (json : Bool)
  | help (scope : Scope)
  | version
deriving DecidableEq, Repr

/-- The options that have been read. -/
structure Given where
  switches : List Switch
  values : List (Parameter × String)
deriving DecidableEq, Repr

namespace Given

def nothing : Given := ⟨[], []⟩

/-- Adds an option without a value, which must be new. -/
def addSwitch? (g : Given) (s : Switch) : Option Given :=
  if s ∈ g.switches then none else some { g with switches := s :: g.switches }

/-- Adds a value, which must not be empty, to an option that must be new. -/
def addValue? (g : Given) (p : Parameter) (value : List Char) : Option Given :=
  if (g.values.lookup p).isSome ∨ value = [] then none
  else some { g with values := (p, String.ofList value) :: g.values }

def value? (g : Given) (p : Parameter) : Option String := g.values.lookup p

def has (g : Given) (s : Switch) : Bool := g.switches.contains s

end Given

/-- How far the arguments have been read. -/
inductive Reading where
  | given (g : Given)
  /-- The next argument is the value of an option. -/
  | awaiting (g : Given) (p : Parameter)
  /-- The rest does not matter. -/
  | ended (i : Invocation)
deriving DecidableEq, Repr

/-- Takes an option that is written out, with the value that is attached to it. -/
def readLong? (scope : Scope) (g : Given) (name : List Char) (value? : Option (List Char)) :
    Option Reading :=
  match scope.long? name, value? with
  | some (.switch s), none => (g.addSwitch? s).map .given
  | some (.parameter p), none => some (.awaiting g p)
  | some (.parameter p), some value => (g.addValue? p value).map .given
  | some .help, none => some (.ended (.help scope))
  | some .version, none => some (.ended .version)
  | _, _ => none

/-- Takes options of one letter. -/
def readShort? (scope : Scope) (g : Given) : List Char → Option Reading
  | [] => some (.given g)
  | letter :: rest =>
    match scope.short? letter with
    | some (.switch s) => (g.addSwitch? s).bind (readShort? scope · rest)
    | some (.parameter p) =>
      match rest with
      | [] => some (.awaiting g p)
      | '=' :: value => (g.addValue? p value).map .given
      | value => (g.addValue? p value).map .given
    | some .help => some (.ended (.help scope))
    | some .version => some (.ended .version)
    | none => none

/-- Whether an argument looks like an option. A single dash does not. -/
def looksLikeOption : List Char → Bool
  | '-' :: _ :: _ => true
  | _ => false

/-- Takes an argument with options. -/
def readOptions? (scope : Scope) (g : Given) (argument : List Char) : Option Reading :=
  match argument with
  | '-' :: '-' :: long =>
    match long.dropWhile (· ≠ '=') with
    | _ :: value => readLong? scope g (long.takeWhile (· ≠ '=')) (some value)
    | [] => readLong? scope g long none
  | '-' :: letter :: rest => readShort? scope g (letter :: rest)
  | _ => none

/-- Takes the arguments of a command. Two dashes end the options, so nothing may follow them. -/
def readCommand? (scope : Scope) (r : Reading) : List String → Option Reading
  | [] => some r
  | argument :: arguments =>
    let cs := argument.toList
    match r with
    | .ended i => some (.ended i)
    | .awaiting g p =>
      if looksLikeOption cs then none
      else (g.addValue? p cs).bind fun g => readCommand? scope (.given g) arguments
    | .given g =>
      if argument = "--" then (if arguments = [] then some (.given g) else none)
      else (readOptions? scope g cs).bind fun r => readCommand? scope r arguments

namespace Invocation

/-- The command with its options. -/
def ofReading? (scope : Scope) : Reading → Option Invocation
  | .ended i => some i
  | .awaiting _ _ => none
  | .given g =>
    match scope with
    | .program => none
    | .resolve =>
      (g.value? .snapshot).map fun snapshot =>
        .resolve snapshot (g.value? .output) (g.value? .config) (g.has .pretty)
    | .check => (g.value? .input).map fun input => .check input (g.has .json)

/-- The topic that help is asked on. -/
def helpOn? : List String → Option Invocation
  | [] | ["help"] => some (help .program)
  | ["resolve"] => some (help .resolve)
  | ["check"] => some (help .check)
  | _ => none

/-- Takes arguments up to the command. -/
def ofArgumentsFrom? (g : Given) : List String → Option Invocation
  | [] => none
  | "resolve" :: arguments => (readCommand? .resolve (.given .nothing) arguments).bind (ofReading? .resolve)
  | "check" :: arguments => (readCommand? .check (.given .nothing) arguments).bind (ofReading? .check)
  | "help" :: arguments => helpOn? arguments
  | argument :: arguments =>
    match readOptions? .program g argument.toList with
    | some (.given g) => ofArgumentsFrom? g arguments
    | some (.ended i) => some i
    | _ => none

/-- What the arguments ask for, unless they are wrong. -/
def ofArguments? (arguments : List String) : Option Invocation := ofArgumentsFrom? .nothing arguments

end Invocation

end TypeBundle.Cli
