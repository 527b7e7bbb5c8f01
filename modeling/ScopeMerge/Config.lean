import ScopeMerge.Config.Environment
import ScopeMerge.Options

/-!
# The configuration

A configuration has two parts: the map of options, which is handed on unchanged, and the limit on
rounds. It is made of layers of settings; once all layers are laid over each other, the result is
read with the types that are wanted. Keys that nothing asks for are ignored. What is wrong is
reported with the path of keys that leads to it, in the order of the keys.
-/

namespace ScopeMerge

/-- The configuration of a compilation. -/
structure Config where
  options : OptionMap := []
  maxRounds : Nat := 100
deriving DecidableEq, Inhabited

/-- Why settings are not a configuration. -/
inductive ConfigError where
  /-- A file is not a document at all, or one that gives no settings. -/
  | malformed
  /-- A setting is of another type than the one wanted. -/
  | wrongType (found : Setting) (expected : String) (path : List String)
  /-- A setting is of the type wanted, but out of its range. -/
  | wrongValue (found : Setting) (expected : String) (path : List String)
deriving Inhabited

namespace ConfigError

/-- The path of keys to what is wrong. -/
def path : ConfigError → List String
  | malformed => []
  | wrongType _ _ path | wrongValue _ _ path => path

/-- What is wrong, in words. -/
def message : ConfigError → String
  | malformed => "a configuration file is not a TOML document"
  | wrongType found expected _ =>
    "invalid type: found " ++ found.describe ++ ", expected " ++ expected
  | wrongValue found expected _ => "invalid value " ++ found.describe ++ ", expected " ++ expected

end ConfigError

namespace Config

/-- A setting read as a natural number. -/
def readNat (path : List String) (setting : Setting) : Except ConfigError Nat :=
  match setting with
  | .unsigned n => .ok n
  | .signed n => if n < 0 then .error (.wrongValue setting "usize" path) else .ok n.toNat
  | _ => .error (.wrongType setting "usize" path)

/-- A setting read as a text. -/
def readText (path : List String) (setting : Setting) : Except ConfigError String :=
  match setting with
  | .text value => .ok value
  | _ => .error (.wrongType setting "a string" path)

/-- The entries of a table in the order of their keys. -/
def inOrder (entries : List (String × Setting)) : List (String × Setting) :=
  entries.mergeSort fun a b => decide (a.1 ≤ b.1)

/-- A setting read as the map of options. -/
def readOptions (setting : Setting) : Except ConfigError OptionMap :=
  match setting with
  | .table entries =>
    (inOrder entries).mapM fun (key, value) => do
      let text ← readText ["options", key] value
      return (key, text)
  | _ => .error (.wrongType setting "a map" ["options"])

/-- A setting read as the limits of a session. A sequence gives its items to the limits in the
order in which they are declared. -/
def readSession (setting : Setting) : Except ConfigError Nat :=
  match setting with
  | .table entries =>
    match entries.lookup "max_rounds" with
    | some limit => readNat ["session", "max_rounds"] limit
    | none => .ok ({} : Config).maxRounds
  | .sequence (limit :: _) => readNat ["session", "0"] limit
  | .sequence [] => .ok ({} : Config).maxRounds
  | _ => .error (.wrongType setting "struct SessionConfig" ["session"])

/-- A setting read as a whole configuration. -/
def ofSetting (setting : Setting) : Except ConfigError Config := do
  let options ←
    match setting.entries.lookup "options" with
    | some options => readOptions options
    | none => pure []
  let maxRounds ←
    match setting.entries.lookup "session" with
    | some session => readSession session
    | none => pure ({} : Config).maxRounds
  return { options, maxRounds }

/-! ## Layers -/

/-- Where a layer comes from. -/
inductive Source where
  /-- A file, under the path that messages show. -/
  | file (path : String)
  | environment
  | commandLine
deriving DecidableEq, Inhabited

/-- One layer. -/
structure Layer where
  source : Source
  setting : Setting
deriving Inhabited

/-- The layer that a configuration file gives. -/
def Layer.ofFile (path text : String) : Except ConfigError Layer :=
  match (Toml.parse? text).bind Setting.ofDocument? with
  | some setting => .ok { source := .file path, setting }
  | none => .error .malformed

/-- The layer that environment variables give. -/
def Layer.ofEnvironment (assignments : List (String × String)) : Layer :=
  { source := .environment, setting := Environment.settings assignments }

/-- The layer that options on the command line give. Keys are taken literally. -/
def Layer.ofOptions (options : OptionMap) : Layer :=
  { source := .commandLine
    setting := .table [("options", .table (options.map fun entry => (entry.1, .text entry.2)))] }

/-- All layers laid over each other, the later ones on top. -/
def combine (layers : List Layer) : Setting :=
  layers.foldl (fun earlier layer => Setting.laidOver earlier layer.setting) (.table [])

/-- The configuration that layers give. -/
def ofLayers (layers : List Layer) : Except ConfigError Config :=
  ofSetting (combine layers)

/-- The place that a faulty setting comes from, in the words of a message: the topmost layer that
has the path. -/
def location (layers : List Layer) (path : List String) : String :=
  let key (first : List String) : String := Text.quoted (String.intercalate "." first)
  let topmost : Option Source :=
    (layers.reverse.find? fun layer => layer.setting.reaches path).map (·.source)
  match topmost with
  | some (.file file) => " for key " ++ key ("default" :: path) ++ " in " ++ file ++ " TOML file"
  | some .environment =>
    " for key " ++ key (path.map fun part => String.ofList (part.toList.map Char.toUpper)) ++
      " in `" ++ Environment.marker ++ "` environment variable(s)"
  | _ => ""

end Config

end ScopeMerge
