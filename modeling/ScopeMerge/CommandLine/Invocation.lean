import ScopeMerge.CommandLine.Grammar

/-!
# The commands

There are two commands: one runs a compilation session over unit files, the other prints the scope
of one declaration. A third one, help, only explains them. One switch can be given before or after
the command's name.
-/

namespace ScopeMerge.CommandLine

/-- A command with its arguments. -/
inductive Command where
  /-- Runs a session. -/
  | process (inputs dependencies : List String) (output : Option String)
      (options : List (String × String))
  /-- Prints the scope of a declaration. -/
  | scope (input declaration : String) (dependencies : List String)
deriving DecidableEq, Inhabited

/-- What the arguments ask for. -/
structure Invocation where
  verbose : Bool
  command : Command
deriving DecidableEq, Inhabited

/-! ## Options of a session on the command line -/

/-- A key and a value, separated by the first equals sign; blanks around either do not count, and
the key must not be empty. -/
def readAssignment (text : String) : Except String (String × String) :=
  match Text.cutAtFirst? '=' text with
  | none => .error ("expected key=value, got '" ++ text ++ "'")
  | some (key, value) =>
    if Text.trim key = "" then .error ("missing option name in '" ++ text ++ "'")
    else .ok (Text.trim key, Text.trim value)

/-- An option of the session has to be an assignment. -/
def checkAssignment : ValueCheck := fun text =>
  match readAssignment text with
  | .ok _ => .ok ()
  | .error message => .error (.valueValidation message)

/-! ## What can be given -/

def verboseOption : OptionSpec :=
  { id := "verbose", short := some 'v', long := "verbose", kind := .flag }

def helpOption : OptionSpec :=
  { id := "help", short := some 'h', long := "help", kind := .help }

def versionOption : OptionSpec :=
  { id := "version", short := some 'V', long := "version", kind := .version }

def dependencyOption : OptionSpec :=
  { id := "dependency", short := some 'd', long := "dependency", kind := .repeated,
    check := checkPath }

/-- What can be given before the name of a command. -/
def generalSpec : CommandSpec :=
  { options := [verboseOption, helpOption, versionOption] }

/-- What can be given to the command that runs a session. -/
def processSpec : CommandSpec :=
  { options :=
      [ verboseOption, helpOption, dependencyOption,
        { id := "output", long := "output", kind := .single, check := checkPath },
        { id := "option", short := some 'o', long := "option", kind := .repeated,
          check := checkAssignment } ]
    positionals := [{ id := "inputs", isRepeated := true, check := checkPath }] }

/-- What can be given to the command that prints a scope. -/
def scopeSpec : CommandSpec :=
  { options := [verboseOption, helpOption, dependencyOption]
    positionals := [{ id := "input", check := checkPath }, { id := "declaration" }] }

/-- The names of the commands. -/
def commandNames : List String := ["process", "scope", "help"]

/-! ## Reading a whole command line -/

/-- Reads the arguments of the command that runs a session. -/
def readProcess (verbose : Bool) (arguments : List String) : Except ArgumentError Invocation := do
  let scan ← readArguments processSpec arguments
  return {
    verbose := verbose || scan.has "verbose"
    command := .process (scan.valuesOf "inputs") (scan.valuesOf "dependency")
      (scan.valuesOf "output").head?
      ((scan.valuesOf "option").filterMap fun text => (readAssignment text).toOption) }

/-- Reads the arguments of the command that prints a scope. -/
def readScope (verbose : Bool) (arguments : List String) : Except ArgumentError Invocation := do
  let scan ← readArguments scopeSpec arguments
  return {
    verbose := verbose || scan.has "verbose"
    command := .scope ((scan.valuesOf "input").headD "") ((scan.valuesOf "declaration").headD "")
      (scan.valuesOf "dependency") }

/-- The answer to a request for help on a command; no command has commands of its own. -/
def readHelp : List String → ArgumentError
  | [] => .displayHelp
  | [name] => if commandNames.contains name then .displayHelp else .invalidSubcommand
  | _ => .invalidSubcommand

/-- Reads the arguments from some place before the name of the command on. -/
def readFrom (scan : Scan) : List String → Except ArgumentError Invocation
  | [] => .error (if scan.given.isEmpty then .displayHelpOnMissing else .missingSubcommand)
  | argument :: rest =>
    if scan.onlyPositionals then
      .error (if commandNames.contains argument then .unknownArgument else .invalidSubcommand)
    else if argument = "process" then readProcess (scan.has "verbose") rest
    else if argument = "scope" then readScope (scan.has "verbose") rest
    else if argument = "help" then .error (readHelp rest)
    else
      match argument.toList with
      | '-' :: _ :: _ => do
        let next ← scan.take generalSpec argument
        readFrom next rest
      | _ => .error .invalidSubcommand

/-- Reads a command line without the name of the program. -/
def read (arguments : List String) : Except ArgumentError Invocation :=
  readFrom {} arguments

end ScopeMerge.CommandLine
