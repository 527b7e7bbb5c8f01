import ScopeMerge.Diagnostic

/-!
# What a compilation puts out

Processors hand over generated files and diagnostics; both are kept in the order in which they
arrive. A file identity is written once: a second file with the same identity is refused, and the
first one stays as it is.
-/

namespace ScopeMerge

/-- The files generated and the diagnostics recorded so far. -/
structure Output where
  files : List SourceFile := []
  diagnostics : List Diagnostic := []
deriving DecidableEq, Inhabited

namespace Output

/-- Records an error. -/
def report (output : Output) (error : MergeError) : Output :=
  { output with diagnostics := output.diagnostics ++ [.ofError error] }

/-- Records a warning. -/
def warn (output : Output) (message : String) (symbol : Option Name) : Output :=
  { output with diagnostics := output.diagnostics ++ [.warning message symbol] }

/-- Writes a file whose identity is not taken. -/
def create (output : Output) (file : SourceFile) : Except MergeError Output :=
  if output.files.any (·.id = file.id) then .error (.fileAlreadyExists file.id)
  else .ok { output with files := output.files ++ [file] }

/-- Writes a file, or records that its identity is taken. -/
def emit (output : Output) (file : SourceFile) : Output :=
  match output.create file with
  | .ok written => written
  | .error error => output.report error

/-- Writes one file for each declaration. -/
def emitEach (output : Output) (declarations : List Declaration) : Output :=
  declarations.foldl (fun written d => written.emit (.generated d)) output

/-- Writes what an attempt resulted in, or records why it failed. -/
def absorb (output : Output) : Except MergeError (List Declaration) → Output
  | .ok declarations => output.emitEach declarations
  | .error error => output.report error

/-- Whether an error was recorded. -/
def hasErrors (output : Output) : Bool :=
  output.diagnostics.any (·.isError)

end Output

end ScopeMerge
