import ScopeMerge.Text.LetterCase
import ScopeMerge.Text.Pieces

/-!
# Qualified names and file identities

A declaration is identified by its qualified name: a package, the enclosing declarations and the
simple name, joined by dots. Any text is a name; nothing here rejects one. What the rest of the
library needs from a name is

* its *simple name*, the part after the last dot;
* its *flattened* form, in which the dots are gone and every segment starts with an upper case
  letter, so that a name of another package can serve as one simple name;
* the names of members of the declaration, and names derived from it by a suffix.

Names are ordered by code points, which is the order in which lookups and generated supertypes
appear.
-/

namespace ScopeMerge

/-- The qualified name of a declaration. -/
structure Name where
  text : String
deriving DecidableEq, Inhabited

namespace Name

/-- The order of names by code points. -/
protected def le (a b : Name) : Bool :=
  decide (a.text ≤ b.text)

/-- The segments of a name, without empty ones. -/
def segments (name : Name) : List String :=
  (Text.pieces '.' name.text).filter (· ≠ "")

/-- The part of a name after its last dot. -/
def simpleName (name : Name) : String :=
  (Text.pieces '.' name.text).getLastD ""

/-- All segments with a capital first letter, written as one word. -/
def flatten (name : Name) : String :=
  String.join (name.segments.map Text.capitalize)

/-- The name of a member of the named declaration. -/
def child (name : Name) (member : String) : Name :=
  ⟨name.text ++ "." ++ member⟩

/-- The name with a suffix attached to its last segment. -/
def withSuffix (name : Name) (suffix : String) : Name :=
  ⟨name.text ++ suffix⟩

/-- A simple name inside a package; the empty package adds nothing. -/
def inPackage (package simple : String) : Name :=
  if package = "" then ⟨simple⟩ else ⟨package ++ "." ++ simple⟩

/-- The distinct names of a list, in order. -/
def sortedSet (names : List Name) : List Name :=
  names.eraseDups.mergeSort Name.le

/-- A list of names as prose, for messages. -/
def commaSeparated (names : List Name) : String :=
  String.intercalate ", " (names.map Name.text)

end Name

/-- The identity of a source file. -/
structure FileId where
  text : String
deriving DecidableEq, Inhabited

namespace FileId

/-- The order of file identities by code points. -/
protected def le (a b : FileId) : Bool :=
  decide (a.text ≤ b.text)

/-- The identity of the generated file whose first declaration has the given name. -/
def generated (name : Name) : FileId :=
  ⟨"generated/" ++ name.text⟩

end FileId

end ScopeMerge
