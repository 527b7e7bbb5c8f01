import ScopeMerge.Config
import ScopeMerge.FileTree

/-!
# Finding the configuration

Two files are looked for. The user's file is under the home directory, and only if nothing is
there is it looked for under the configuration directory that the environment names. The
project's file is looked for in the working directory and then in every directory above it; the
first one found is used alone.
-/

namespace ScopeMerge

/-- What a command can see of the machine it runs on. -/
structure Surroundings where
  tree : FileTree
  workingDirectory : FilePath
  homeDirectory : FilePath
  /-- The configuration directory that the environment names. -/
  configDirectory : Option FilePath := none
  /-- The environment variables, in the order of their names. -/
  environment : List (String × String) := []
deriving Inhabited

namespace Surroundings

/-- Where the user's file is under a configuration directory. -/
def userFileIn (directory : FilePath) : FilePath :=
  directory ++ ["scopeweave", "config.toml"]

/-- The place of the user's file. -/
def userFile (around : Surroundings) : FilePath :=
  let usual := userFileIn (around.homeDirectory ++ [".config"])
  if around.tree.hasPath usual then usual
  else (around.configDirectory.map userFileIn).getD usual

/-- A directory and every directory above it, the nearest first. -/
def upwards (directory : FilePath) : List FilePath :=
  (List.range (directory.length + 1)).map fun up => directory.take (directory.length - up)

/-- The places where the project's file can be, in the order in which they are tried. -/
def projectFiles (around : Surroundings) : List FilePath :=
  (upwards around.workingDirectory).map (· ++ [".scopeweave.toml"])

/-- The places of the configuration files that are there, the user's first. -/
def configFiles (around : Surroundings) : List FilePath :=
  [around.userFile].filter around.tree.isFile ++
    (around.projectFiles.find? around.tree.isFile).toList

/-- A path as seen from a directory. -/
def relativePath (directory path : FilePath) : String :=
  let shared := ((directory.zip path).takeWhile fun pair => pair.1 = pair.2).length
  String.intercalate "/"
    (List.replicate (directory.length - shared) ".." ++ path.drop shared)

/-- A path in the words of a message: as seen from the working directory, if that is shorter. -/
def shownPath (around : Surroundings) (path : FilePath) : String :=
  let shared := ((around.workingDirectory.zip path).takeWhile fun pair => pair.1 = pair.2).length
  if around.workingDirectory.length + path.length - 2 * shared < path.length + 1 then
    relativePath around.workingDirectory path
  else "/" ++ String.intercalate "/" path

end Surroundings

namespace Config

/-- The layers that the surroundings give, with the options of the command line on top. -/
def layersOf (around : Surroundings) (overrides : Option OptionMap) :
    Except ConfigError (List Layer) := do
  let files ← around.configFiles.mapM fun path =>
    Layer.ofFile (around.shownPath path) ((around.tree.text? path).getD "")
  return files ++ [Layer.ofEnvironment around.environment] ++
    (overrides.map Layer.ofOptions).toList

/-- The configuration that holds in some surroundings. -/
def load (around : Surroundings) (overrides : Option OptionMap) : Except ConfigError Config := do
  ofLayers (← layersOf around overrides)

/-- What is wrong with the configuration, in words, with the place it comes from. -/
def describeError (around : Surroundings) (overrides : Option OptionMap) (error : ConfigError) :
    String :=
  match layersOf around overrides with
  | .ok layers => error.message ++ location layers error.path
  | .error _ => error.message

end Config

end ScopeMerge
