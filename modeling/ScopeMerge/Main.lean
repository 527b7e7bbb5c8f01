import ScopeMerge.CommandLine.Run
import ScopeMerge.CommandLine.Usage

/-!
# The program

What a command finds is gathered before it runs: the working directory, the environment, and those
files and directories that its arguments and the search for a configuration can lead to. The
command itself is a function of that. Afterwards its outcome is printed and written.
-/

namespace ScopeMerge

/-- The names on a path. -/
private def namesOnPath (path : String) : FilePath :=
  (Text.pieces '/' path).filter (· ≠ "")

/-- A path from the top. -/
private def absolutePath (path : FilePath) : String :=
  "/" ++ String.intercalate "/" path

/-- The environment variables in the order of their names, none where they cannot be listed. -/
private def readEnvironment : IO (List (String × String)) := do
  let text ← try IO.FS.readFile "/proc/self/environ" catch _ => pure ""
  let assignments := (Text.pieces '\x00' text).filterMap (Text.cutAtFirst? '=')
  return assignments.mergeSort fun a b => decide (a.1 ≤ b.1)

/-- Adds a file to a tree if it can be read. -/
private def gatherFile (tree : FileTree) (place : FilePath) (path : String) : IO FileTree := do
  try
    let text ← IO.FS.readFile path
    return { tree with files := (place, text) :: tree.files }
  catch _ => return tree

/-- Adds a directory to a tree if it is there. -/
private def gatherDirectory (tree : FileTree) (place : FilePath) : IO FileTree := do
  let isThere ← try (← IO.FS.realPath (absolutePath place)).isDir catch _ => pure false
  return if isThere then { tree with directories := place :: tree.directories } else tree

/-- Every place that a path leads through, the last one included. -/
private def placesOn (start : FilePath) (names : List String) : List FilePath :=
  (List.range (names.length + 1)).map fun n => (names.take n).foldl FileTree.step start

/-- Adds to a tree what a written path leads to and through. -/
private def gatherPath (workingDirectory : FilePath) (tree : FileTree) (path : String) :
    IO FileTree := do
  let places := placesOn (FileTree.start workingDirectory path) (Text.pieces '/' path)
  let walked ← places.foldlM gatherDirectory tree
  gatherFile walked (places.getLastD []) path

namespace CommandLine.Command

/-- The paths among the arguments of a command. -/
private def paths : Command → List String
  | process inputs dependencies output _ => dependencies ++ inputs ++ output.toList
  | scope input _ dependencies => dependencies ++ [input]

end CommandLine.Command

/-- Gathers what a command can find. -/
private def gather (command : CommandLine.Command) : IO Surroundings := do
  let workingDirectory := namesOnPath (← IO.currentDir).toString
  let homeDirectory := namesOnPath ((← IO.getEnv "HOME").getD "")
  let configDirectory := (← IO.getEnv "XDG_CONFIG_HOME").map namesOnPath
  let bare : Surroundings :=
    { tree := {}, workingDirectory, homeDirectory, configDirectory
      environment := ← readEnvironment }
  let candidates :=
    ((homeDirectory ++ [".config"]) :: configDirectory.toList).map Surroundings.userFileIn ++
      bare.projectFiles
  let configured ← candidates.foldlM
    (fun tree place => gatherFile tree place (absolutePath place))
    { directories := [workingDirectory] }
  return { bare with tree := ← command.paths.foldlM (gatherPath workingDirectory) configured }

/-- Writes what a command leaves behind, if the place for it is there. -/
private def deliver (around : Surroundings) (outcome : CommandLine.Outcome) :
    IO CommandLine.Outcome := do
  match outcome.document with
  | none => return outcome
  | some (path, content) =>
    match around.tree.write around.workingDirectory path content with
    | .error failure => return outcome.afterWriting (some failure)
    | .ok _ =>
      try
        IO.FS.writeFile path content
        return outcome
      catch failure => return { outcome with failure := some failure.toString }

end ScopeMerge

open ScopeMerge in
/-- Runs the command that the arguments ask for. -/
def main (arguments : List String) : IO UInt32 := do
  match CommandLine.read arguments with
  | .error error =>
    if error.isAnswer then
      IO.println error.message
      return 0
    else
      IO.eprintln error.message
      return 2
  | .ok invocation =>
    let around ← gather invocation.command
    let outcome ← deliver around (invocation.command.run around)
    IO.print outcome.standardOutput
    IO.eprint outcome.standardError
    match outcome.failure with
    | none => return 0
    | some message =>
      IO.eprintln ("Error: " ++ message)
      return 1
