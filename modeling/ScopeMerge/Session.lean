import ScopeMerge.Round

/-!
# A compilation session

A session is one compilation: it runs rounds over a symbol table until nothing is left to do. The
files generated in a round are the new files of the next one, and what was put off is delivered
again. The session ends

* with success, after a round that generated nothing and put nothing off;
* with failure, after a round that recorded an error;
* without an answer, when it would need more rounds than it is allowed.

A successful session leaves a compilation unit that later sessions can use as a prior result.
-/

namespace ScopeMerge

/-- Why a session has no result. -/
inductive SessionError where
  /-- A declaration is malformed; the entries say which and why. -/
  | failed (diagnostics : List Diagnostic)
  /-- The session was stopped after so many rounds. -/
  | roundLimit (rounds : Nat)
  /-- A file could not be added to the symbol table. -/
  | refused (error : MergeError)
deriving DecidableEq, Inhabited

/-- The failure in words. -/
def SessionError.message : SessionError → String
  | failed diagnostics =>
    "compilation failed with " ++ (diagnostics.countP (·.isError)).repr ++ " error(s)"
  | roundLimit rounds => "no fixed point reached after " ++ rounds.repr ++ " rounds"
  | refused error => error.message

/-- What a successful session leaves behind. -/
structure SessionResult where
  /-- Rounds run, the last and idle one included. -/
  rounds : Nat
  /-- The sources and everything generated. -/
  unit : CompilationUnit
  /-- The generated files, in the order written. -/
  generated : List FileId
  /-- The warnings recorded on the way. -/
  diagnostics : List Diagnostic
deriving DecidableEq, Inhabited

/-- A compilation about to run. -/
structure Session where
  table : SymbolTable := .initial
  options : Options := {}
  maxRounds : Nat := 100
deriving Inhabited

namespace Session

/-- Makes a prior compilation result visible. -/
def addDependency (session : Session) (unit : CompilationUnit) : Except MergeError Session :=
  (session.table.addUnit unit false).map fun table => { session with table }

/-- Adds files to compile. -/
def addSources (session : Session) (unit : CompilationUnit) : Except MergeError Session :=
  (session.table.addUnit unit true).map fun table => { session with table }

/-- A session between two rounds. -/
structure State where
  table : SymbolTable
  workspace : Workspace := {}
  /-- What the last round put off. -/
  deferred : List Name := []
  /-- Rounds run so far. -/
  rounds : Nat := 0
deriving Inhabited

/-- What a round leads to: more rounds, or the end. -/
inductive Progress where
  | continues (state : State)
  | ends (state : State)

/-- One round, from the delivery of what is due to the feeding back of what was generated. -/
def State.step (options : Options) (state : State) : Except SessionError Progress :=
  let table := state.table.beginRound state.deferred
  let before := state.workspace.output.files.length
  let (workspace, deferred) := Round.run options table state.workspace
  if workspace.output.hasErrors then .error (.failed workspace.output.diagnostics)
  else
    let generated := workspace.output.files.drop before
    match table.addUnit { files := generated } true with
    | .error error => .error (.refused error)
    | .ok extended =>
      let next := { table := extended, workspace, deferred, rounds := state.rounds + 1 }
      .ok (if generated.isEmpty && deferred.isEmpty then .ends next else .continues next)

/-- The result of a session whose last round is over. -/
def State.result (state : State) : SessionResult :=
  { rounds := state.rounds
    unit := state.table.localUnit
    generated := state.workspace.output.files.map (·.id)
    diagnostics := state.workspace.output.diagnostics }

/-- Runs at most so many further rounds, up to the one that ends the session. -/
def State.complete (options : Options) : Nat → State → Except SessionError State
  | 0, state => .error (.roundLimit state.rounds)
  | further + 1, state =>
    match state.step options with
    | .error error => .error error
    | .ok (.ends final) => .ok final
    | .ok (.continues next) => next.complete options further

/-- Runs a session until nothing is left to do. -/
def complete (session : Session) : Except SessionError State :=
  State.complete session.options session.maxRounds { table := session.table }

/-- Runs a session to its end. -/
def run (session : Session) : Except SessionError SessionResult :=
  session.complete.map State.result

/-! ## Whole compilations -/

/-- What a session is given before it runs. -/
inductive Input where
  /-- A prior compilation result. -/
  | dependency (unit : CompilationUnit)
  /-- Files to compile. -/
  | sources (unit : CompilationUnit)
deriving DecidableEq, Inhabited

/-- Adds an input. -/
def add (session : Session) : Input → Except MergeError Session
  | .dependency unit => session.addDependency unit
  | .sources unit => session.addSources unit

/-- Adds inputs up to the first one that is refused. -/
def addAll (session : Session) : List Input → Except MergeError Session
  | [] => .ok session
  | input :: rest =>
    match session.add input with
    | .error error => .error error
    | .ok extended => extended.addAll rest

/-- A compilation from its inputs to the state it ends in. -/
def compile (options : Options) (maxRounds : Nat) (inputs : List Input) :
    Except SessionError State :=
  match ({ options, maxRounds } : Session).addAll inputs with
  | .error error => .error (.refused error)
  | .ok session => session.complete

end Session

end ScopeMerge
