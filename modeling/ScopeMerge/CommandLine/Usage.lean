import ScopeMerge.CommandLine.Invocation

/-!
# What the program says about its command line

A request for help is answered with the usage, and so is a command line without a command. Anything
else that is wrong with the arguments is answered with one line.
-/

namespace ScopeMerge.CommandLine

/-- The usage of the program. -/
def usage : String :=
  String.intercalate "\n"
    [ "Merge scoped contributions into component aggregates",
      "",
      "Usage: scopeweave [-v] process <INPUT>... [-d <UNIT>]... [--output <FILE>]",
      "                               [-o <KEY=VALUE>]...",
      "       scopeweave [-v] scope <INPUT> <DECLARATION> [-d <UNIT>]...",
      "",
      "Commands:",
      "  process  Run all processors over compilation units until a fixed point",
      "  scope    Print the scope of a declaration",
      "  help     Print this text",
      "",
      "Options:",
      "  -v, --verbose  Run in verbose mode",
      "  -h, --help     Print this text",
      "  -V, --version  Print the version" ]

/-- The version of the program. -/
def version : String := "scopeweave 0.1.0"

namespace ArgumentError

/-- The answer to arguments that run no command. -/
def message : ArgumentError → String
  | missingRequiredArgument => "error: a required argument is missing"
  | unknownArgument => "error: unexpected argument"
  | missingSubcommand => "error: a command is required"
  | invalidSubcommand => "error: unrecognized command"
  | invalidValue => "error: a value is required"
  | tooManyValues => "error: unexpected value"
  | argumentConflict => "error: an argument cannot be used more than once"
  | valueValidation reason => "error: " ++ reason
  | displayHelp | displayHelpOnMissing => usage
  | displayVersion => version

/-- Whether the answer is what was asked for. -/
def isAnswer : ArgumentError → Bool
  | displayHelp | displayVersion => true
  | _ => false

end ArgumentError

end ScopeMerge.CommandLine
