import ScopeMerge.MergeError

/-!
# Diagnostics

What a compilation tells the user: errors, which fail it, and warnings, which do not. An entry
keeps its text and the declaration it is attached to.
-/

namespace ScopeMerge

/-- How grave an entry is. -/
inductive Severity where
  | warning
  | error
deriving DecidableEq, Inhabited

/-- One entry. -/
structure Diagnostic where
  severity : Severity
  message : String
  symbol : Option Name := none
deriving DecidableEq, Inhabited

namespace Diagnostic

/-- The entry for an error, attached to the declaration that the error concerns. -/
def ofError (error : MergeError) : Diagnostic :=
  { severity := .error, message := error.message, symbol := error.symbol? }

/-- A warning attached to a declaration. -/
def warning (message : String) (symbol : Option Name) : Diagnostic :=
  { severity := .warning, message, symbol }

def isError (entry : Diagnostic) : Bool :=
  entry.severity = .error

def isWarning (entry : Diagnostic) : Bool :=
  entry.severity = .warning

/-- An entry as one line of text. -/
def render (entry : Diagnostic) : String :=
  let level := if entry.isError then "e: " else "w: "
  let place := (entry.symbol.map fun name => "[" ++ name.text ++ "] ").getD ""
  level ++ place ++ entry.message

end Diagnostic

end ScopeMerge
