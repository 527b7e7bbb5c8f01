import ScopeMerge.Name

/-!
# Options

Options reach the library as a map of texts, passed through unchanged from whatever runs it. Three
kinds of key have a meaning, all others have none:

* a list of further contribution annotations, separated by colons;
* the identity of a processor, whose value switches it off when it says so;
* a switch that turns unsupported legacy parameters from errors into warnings.

Blanks around a value or around a list element do not count, and neither does the case of the two
words that switch something.
-/

namespace ScopeMerge

/-- Texts under distinct keys. -/
abbrev OptionMap := List (String × String)

/-- Gives a key a value, in place of any earlier one. -/
def OptionMap.set (map : OptionMap) (key value : String) : OptionMap :=
  map.filter (·.1 ≠ key) ++ [(key, value)]

/-- The map that a sequence of assignments leaves behind; the last one of a key counts. -/
def OptionMap.ofAssignments (assignments : List (String × String)) : OptionMap :=
  assignments.foldl (fun map entry => OptionMap.set map entry.1 entry.2) []

/-- The options in effect. -/
structure Options where
  /-- Contribution annotations beside the built-in ones, in the order given. -/
  contributingAnnotations : List Name := []
  /-- Identities of the processors that are switched off. -/
  disabled : List String := []
  ignoreUnsupportedLegacyParameters : Bool := false
deriving DecidableEq, Inhabited

namespace Options

/-- The key of the list of contribution annotations. -/
def contributingAnnotationsKey : String := "scopeweave-contributing-annotations"

/-- The key of the switch for unsupported legacy parameters. -/
def ignoreUnsupportedKey : String := "scopeweave-compat-ignore-unsupported-parameters"

/-- The elements of a list separated by colons, without blanks around them and without empty
ones. -/
def splitNames (text : String) : List Name :=
  ((Text.pieces ':' text).map Text.trim).filter (· ≠ "") |>.map Name.mk

/-- Whether a value is a given word, up to case and blanks around it. -/
def isWord (word value : String) : Bool :=
  Text.equalIgnoringAsciiCase (Text.trim value) word

/-- The options that a map states. -/
def ofMap (map : OptionMap) : Options :=
  { contributingAnnotations := ((map.lookup contributingAnnotationsKey).map splitNames).getD []
    disabled := (map.filter fun entry => isWord "disabled" entry.2).map (·.1)
    ignoreUnsupportedLegacyParameters :=
      (map.lookup ignoreUnsupportedKey).any (isWord "true") }

/-- Whether a processor is switched off. -/
def isDisabled (options : Options) (processor : String) : Bool :=
  options.disabled.contains processor

end Options

end ScopeMerge
