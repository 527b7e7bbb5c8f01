import ScopeMerge.CommandLine.Invocation
import ScopeMerge.Config.Location
import ScopeMerge.Session
import ScopeMerge.UnitFormat

/-!
# Running a command

What a command prints and writes is a function of the files and the configuration that it finds.
Units are read one after the other, and each is added before the next one is read, so that the
first fault in this order is the one reported. Nothing is written or printed by a command that
fails, apart from the diagnostics of a failed compilation.
-/

namespace ScopeMerge.CommandLine

/-- What a command leaves behind. -/
structure Outcome where
  /-- Why the command failed. -/
  failure : Option String := none
  standardOutput : String := ""
  standardError : String := ""
  /-- A file to write: its path and its content. -/
  document : Option (String × String) := none
deriving DecidableEq, Inhabited

namespace Outcome

/-- The outcome of a command that fails before it does anything. -/
def ofFailure (message : String) : Outcome :=
  { failure := some message }

/-- The outcome once it is known whether the file could be written. -/
def afterWriting (outcome : Outcome) (failure : Option WriteFailure) : Outcome :=
  { outcome with failure := outcome.failure.or (failure.map (·.message)) }

end Outcome

/-- The lines of some diagnostics. -/
def lines (diagnostics : List Diagnostic) : String :=
  String.join (diagnostics.map fun entry => entry.render ++ "\n")

/-! ## Reading units -/

/-- Reads the unit in a file. -/
def readUnit (around : Surroundings) (path : String) : Except String CompilationUnit :=
  match around.tree.read? around.workingDirectory path with
  | none => .error ("reading " ++ path)
  | some text =>
    match UnitFormat.parse? text with
    | none => .error (path ++ " is not a compilation unit")
    | some unit => .ok unit

/-- Reads units and adds each to a symbol table. -/
def addUnits (around : Surroundings) (isLocal : Bool) (table : SymbolTable) (paths : List String) :
    Except String SymbolTable :=
  paths.foldlM (fun extended path => do
    let unit ← readUnit around path
    (extended.addUnit unit isLocal).mapError (·.message)) table

/-- The symbol table of some dependencies and sources. -/
def readTable (around : Surroundings) (dependencies sources : List String) :
    Except String SymbolTable := do
  let prior ← addUnits around false .initial dependencies
  addUnits around true prior sources

/-! ## The commands -/

/-- The outcome of a session. A failed compilation shows all its diagnostics, a successful one
its warnings. -/
def concludeSession (output : Option String) :
    Except SessionError SessionResult → Outcome
  | .error (.failed diagnostics) =>
    { failure := some ("processing failed with " ++
        (diagnostics.countP (·.isError)).repr ++ " error(s)")
      standardError := lines diagnostics }
  | .error error => .ofFailure error.message
  | .ok result =>
    let text := UnitFormat.pretty result.unit
    let warnings := lines (result.diagnostics.filter (·.isWarning))
    match output with
    | some path => { standardError := warnings, document := some (path, text) }
    | none => { standardError := warnings, standardOutput := text ++ "\n" }

/-- Runs a session over unit files. -/
def runProcess (around : Surroundings) (inputs dependencies : List String)
    (output : Option String) (options : List (String × String)) : Outcome :=
  let overrides := OptionMap.ofAssignments options
  match Config.load around (some overrides) with
  | .error error => .ofFailure (Config.describeError around (some overrides) error)
  | .ok config =>
    match readTable around dependencies inputs with
    | .error message => .ofFailure message
    | .ok table =>
      let session : Session :=
        { table, options := .ofMap config.options, maxRounds := config.maxRounds }
      concludeSession output session.run

/-- Prints the scope of a declaration. -/
def runScope (around : Surroundings) (input declaration : String) (dependencies : List String) :
    Outcome :=
  match readTable around dependencies [input] with
  | .error message => .ofFailure message
  | .ok table =>
    match table.find? ⟨declaration⟩ with
    | none => .ofFailure ("declaration not found: " ++ declaration)
    | some d =>
      match Scope.resolve table d with
      | .error error => .ofFailure error.message
      | .ok scope => { standardOutput := scope.marker.text ++ "\n" }

/-- Runs a command. -/
def Command.run (around : Surroundings) : Command → Outcome
  | process inputs dependencies output options =>
    runProcess around inputs dependencies output options
  | scope input declaration dependencies => runScope around input declaration dependencies

end ScopeMerge.CommandLine
