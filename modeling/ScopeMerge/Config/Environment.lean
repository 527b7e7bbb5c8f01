import ScopeMerge.Config.Environment.Value

/-!
# Settings from environment variables

An environment variable belongs to the configuration when its name starts with a certain word, in
letters of either case. The rest of the name is a path of keys, in lower case, with two
underscores between keys; a variable with an empty key on its path is ignored. Blank characters
around the name and around the path count for nothing. The settings of
several variables are laid over each other in the order of the variables.
-/

namespace ScopeMerge.Config.Environment

/-- What the names of configuration variables start with. -/
def marker : String := "SCOPEWEAVE_"

/-- The rest of a variable's name, if it belongs to the configuration. -/
def relevant? (variableName : String) : Option (List Char) :=
  let (head, rest) := (Text.trimChars variableName.toList).splitAt marker.length
  if head.map Char.toUpper = marker.toList then some rest else none

/-- A text with every pair of underscores replaced by a dot. -/
def dotted : List Char → List Char
  | '_' :: '_' :: rest => '.' :: dotted rest
  | c :: rest => c :: dotted rest
  | [] => []

/-- The path of keys that the rest of a variable's name spells. -/
def path? (rest : List Char) : Option (List String) :=
  let keys := Text.splitChars '.' ((Text.trimChars (dotted rest)).map Char.toLower)
  if keys.any List.isEmpty then none else some (keys.map String.ofList)

/-- The settings that some variables give, the later ones laid over the earlier ones. -/
def settings (assignments : List (String × String)) : Setting :=
  assignments.foldl (fun earlier entry =>
    match (relevant? entry.1).bind path? with
    | some path => Setting.laidOver earlier (Setting.atPath path (guess entry.2))
    | none => earlier) (.table [])

end ScopeMerge.Config.Environment
