import ScopeMerge.Text.Pieces

/-!
# Reading command line arguments

The arguments of a command are read from left to right by a machine. An argument is

* the end of options, if it is two dashes;
* one long option, if it starts with two dashes, possibly with a value after an equals sign;
* a cluster of short options, if it starts with one dash; the first of them that takes a value
  takes the rest of the cluster;
* the value of the option before it, if that still lacks one;
* a positional argument otherwise.

A value is checked when the argument after it has been understood, so an unknown option is
reported before a malformed value on its left. The machine knows nothing of particular commands:
which options and positional arguments there are is a `CommandSpec`.
-/

namespace ScopeMerge.CommandLine

/-- Why arguments are refused, or why no command is to be run. -/
inductive ArgumentError where
  | missingRequiredArgument
  | unknownArgument
  | missingSubcommand
  | invalidSubcommand
  /-- An option lacks its value, or a path is empty. -/
  | invalidValue
  /-- A value is attached to an option that takes none. -/
  | tooManyValues
  /-- Something that can be given once is given twice. -/
  | argumentConflict
  | valueValidation (message : String)
  | displayHelp
  | displayVersion
  /-- Nothing at all is given. -/
  | displayHelpOnMissing
deriving DecidableEq, Inhabited

/-- How often an option may be given and what it does. -/
inductive OptionKind where
  | flag
  | single
  | repeated
  | help
  | version
deriving DecidableEq, Inhabited

/-- Checks a value. -/
abbrev ValueCheck := String → Except ArgumentError Unit

/-- An option. -/
structure OptionSpec where
  id : String
  short : Option Char := none
  long : String
  kind : OptionKind
  check : ValueCheck := fun _ => .ok ()

/-- A positional argument; it is required, and a repeated one takes all that is left. -/
structure PositionalSpec where
  id : String
  isRepeated : Bool := false
  check : ValueCheck := fun _ => .ok ()

/-- What can be given to a command. -/
structure CommandSpec where
  options : List OptionSpec
  positionals : List PositionalSpec := []

/-- A path has to have a name. -/
def checkPath : ValueCheck := fun value =>
  if value = "" then .error .invalidValue else .ok ()

/-! ## The machine -/

/-- Values that are not checked yet. -/
structure Pending where
  id : String
  isSingle : Bool
  check : ValueCheck
  values : List String := []

/-- The machine between two arguments. -/
structure Scan where
  /-- What was given, in order, with the values that were checked. -/
  given : List (String × String) := []
  pending : Option Pending := none
  /-- Whether the pending option still lacks its value. -/
  lacksValue : Bool := false
  /-- How many positional arguments are complete. -/
  position : Nat := 0
  /-- Whether the end of options was reached. -/
  onlyPositionals : Bool := false

namespace Scan

/-- Whether something was given. -/
def has (scan : Scan) (id : String) : Bool :=
  scan.given.any (·.1 = id)

/-- Takes checked values. -/
def accept (scan : Scan) (id : String) (isSingle : Bool) (check : ValueCheck)
    (values : List String) : Except ArgumentError Scan := do
  if isSingle && scan.has id then
    throw .argumentConflict
  values.forM check
  return { scan with given := scan.given ++ values.map fun value => (id, value) }

/-- Checks the pending values. -/
def settle (scan : Scan) : Except ArgumentError Scan :=
  match scan.pending with
  | none => .ok scan
  | some pending =>
    if pending.values.isEmpty then .error .invalidValue
    else { scan with pending := none }.accept pending.id pending.isSingle pending.check
      pending.values

/-- Takes an option, with the value attached to it if there is one. -/
def takeOption (scan : Scan) (spec : OptionSpec) (attached : Option String) :
    Except ArgumentError Scan := do
  let settled ← scan.settle
  match spec.kind with
  | .help => throw .displayHelp
  | .version => throw .displayVersion
  | .flag =>
    let taken ← settled.accept spec.id true spec.check [""]
    return { taken with lacksValue := false }
  | .single | .repeated =>
    let isSingle := decide (spec.kind = .single)
    match attached with
    | some value =>
      let taken ← settled.accept spec.id isSingle spec.check [value]
      return { taken with lacksValue := false }
    | none =>
      return { settled with
        pending := some { id := spec.id, isSingle, check := spec.check }, lacksValue := true }

/-- Whether an option takes a value. -/
def takesValue (spec : OptionSpec) : Bool :=
  spec.kind = .single || spec.kind = .repeated

/-- Takes a long option without its dashes. -/
def takeLong (command : CommandSpec) (scan : Scan) (text : String) :
    Except ArgumentError Scan :=
  let (name, attached) :=
    match Text.cutAtFirst? '=' text with
    | some (name, value) => (name, some value)
    | none => (text, none)
  match command.options.find? (·.long = name) with
  | none => .error .unknownArgument
  | some spec =>
    if attached.isSome && !takesValue spec then .error .tooManyValues
    else scan.takeOption spec attached

/-- The value attached to a short option by the rest of its cluster. -/
def attachedShort? : List Char → Option String
  | [] => none
  | '=' :: value => some (String.ofList value)
  | value => some (String.ofList value)

/-- Takes a cluster of short options without its dash. -/
def takeCluster (command : CommandSpec) : Scan → List Char → Except ArgumentError Scan
  | scan, [] => .ok scan
  | scan, c :: rest =>
    match command.options.find? (·.short = some c) with
    | none => .error .unknownArgument
    | some spec =>
      if takesValue spec then scan.takeOption spec (attachedShort? rest)
      else do
        let taken ← scan.takeOption spec none
        takeCluster command taken rest

/-- Takes a positional argument. -/
def takePositional (command : CommandSpec) (scan : Scan) (value : String) :
    Except ArgumentError Scan :=
  match command.positionals[scan.position]? with
  | none => .error .unknownArgument
  | some spec => do
    let continues := spec.isRepeated && (scan.pending.map (·.id)) == some spec.id
    let settled ← if continues then pure scan else scan.settle
    let earlier := if continues then (settled.pending.map (·.values)).getD [] else []
    return { settled with
      pending := some { id := spec.id, isSingle := !spec.isRepeated, check := spec.check,
                        values := earlier ++ [value] }
      lacksValue := false
      position := if spec.isRepeated then settled.position else settled.position + 1 }

/-- Takes one argument. -/
def take (command : CommandSpec) (scan : Scan) (argument : String) : Except ArgumentError Scan :=
  if scan.onlyPositionals then scan.takePositional command argument
  else
    match argument.toList with
    | ['-', '-'] => .ok { scan with onlyPositionals := true }
    | '-' :: '-' :: long => scan.takeLong command (String.ofList long)
    | '-' :: c :: cluster => scan.takeCluster command (c :: cluster)
    | _ =>
      match scan.lacksValue, scan.pending with
      | true, some pending =>
        .ok { scan with
          pending := some { pending with values := pending.values ++ [argument] }
          lacksValue := false }
      | _, _ => scan.takePositional command argument

/-- Checks what is pending at the end, and that nothing is missing. -/
def finish (command : CommandSpec) (scan : Scan) : Except ArgumentError Scan := do
  let settled ← scan.settle
  if command.positionals.all fun spec => settled.has spec.id then return settled
  else throw .missingRequiredArgument

/-- The values given under a name, in order. -/
def valuesOf (scan : Scan) (id : String) : List String :=
  (scan.given.filter (·.1 = id)).map (·.2)

end Scan

/-- Reads all arguments of a command. -/
def readArguments (command : CommandSpec) (arguments : List String) :
    Except ArgumentError Scan := do
  let scan ← arguments.foldlM (Scan.take command) {}
  scan.finish command

end ScopeMerge.CommandLine
