import ScopeMerge.Checking
import ScopeMerge.Text.Pieces

/-!
# A tree of files

Configuration and units are kept in files. What a command may find there is a value: the files of
a tree with their contents, and the directories that exist even if they are empty. Paths are lists
of names from the top of the tree; a path written as text is followed name by name from a working
directory, and every name before the last one has to be a directory. The system bounds the length
of a name and that of a written path, both in bytes.
-/

namespace ScopeMerge

/-- The names from the top of a tree down to a file or directory. -/
abbrev FilePath := List String

/-- The files that a command can find. -/
structure FileTree where
  files : List (FilePath × String) := []
  /-- Directories that are there whether or not a file is in them. -/
  directories : List FilePath := []
deriving DecidableEq, Inhabited

/-- Why a file could not be written. -/
inductive WriteFailure where
  /-- The written path holds the character that ends a path for the system. -/
  | endedEarly
  | nameTooLong
  | noSuchFile
  | notADirectory
  | isADirectory
deriving DecidableEq, Inhabited

/-- The failure in the words of the operating system. -/
def WriteFailure.message : WriteFailure → String
  | endedEarly => "file name contained an unexpected NUL byte"
  | nameTooLong => "File name too long (os error 36)"
  | noSuchFile => "No such file or directory (os error 2)"
  | notADirectory => "Not a directory (os error 20)"
  | isADirectory => "Is a directory (os error 21)"

namespace FileTree

/-- The content of the file at a path. -/
def text? (tree : FileTree) (path : FilePath) : Option String :=
  tree.files.lookup path

/-- Whether there is a file at a path. -/
def isFile (tree : FileTree) (path : FilePath) : Bool :=
  (tree.text? path).isSome

/-- Whether there is a directory at a path. -/
def isDirectory (tree : FileTree) (path : FilePath) : Bool :=
  path.isEmpty || tree.directories.any path.isPrefixOf ||
    tree.files.any fun entry => path.isPrefixOf entry.1 && path ≠ entry.1

/-- Whether there is anything at a path. -/
def hasPath (tree : FileTree) (path : FilePath) : Bool :=
  tree.isFile path || tree.isDirectory path

/-! ## Following a written path -/

/-- One step of a path from a directory. -/
def step (directory : FilePath) (name : String) : FilePath :=
  if name = "" ∨ name = "." then directory
  else if name = ".." then directory.dropLast
  else directory ++ [name]

/-- The greatest length of a name. -/
def longestName : Nat := 255

/-- The greatest length of a written path. -/
def longestPath : Nat := 4095

/-- Where a name leads from a place, which has to be a directory. -/
def enter (tree : FileTree) (place : FilePath) (name : String) : Except WriteFailure FilePath :=
  if tree.isDirectory place then
    if name.utf8ByteSize ≤ longestName then .ok (step place name) else .error .nameTooLong
  else if tree.isFile place then .error .notADirectory
  else .error .noSuchFile

/-- Follows some names from a place; what the last one leads to need not be there. -/
def follow (tree : FileTree) (place : FilePath) (names : List String) :
    Except WriteFailure FilePath :=
  names.foldlM tree.enter place

/-- Checks what the system asks of a written path before it is followed. -/
def checkWritten (path : String) : Except WriteFailure Unit := do
  refuseUnless (!path.toList.contains '\x00') .endedEarly
  refuseUnless (path.utf8ByteSize ≤ longestPath) .nameTooLong

/-- Where a written path starts. -/
def start (workingDirectory : FilePath) (path : String) : FilePath :=
  if path.toList.head? = some '/' then [] else workingDirectory

/-- The content of the file that a written path leads to. -/
def read? (tree : FileTree) (workingDirectory : FilePath) (path : String) : Option String :=
  let place := do
    checkWritten path
    tree.follow (start workingDirectory path) (Text.pieces '/' path)
  place.toOption.bind tree.text?

/-- Where a file with a written path is to be. Everything on the way has to be there, and a slash
at the end asks for a directory, whatever the name before it is. -/
def target (tree : FileTree) (workingDirectory : FilePath) (path : String) :
    Except WriteFailure FilePath := do
  checkWritten path
  let names := Text.pieces '/' path
  let proper := (names.reverse.dropWhile (· = "")).reverse
  let directory ← tree.follow (start workingDirectory path) (proper.dropLast ++ ["."])
  refuseUnless (proper.length == names.length) .isADirectory
  let place ← tree.enter directory (proper.getLastD ".")
  refuseUnless (!tree.isDirectory place) .isADirectory
  return place

/-- Writes a file with a written path. -/
def write (tree : FileTree) (workingDirectory : FilePath) (path content : String) :
    Except WriteFailure FileTree :=
  (tree.target workingDirectory path).map fun place =>
    { tree with files := tree.files.filter (·.1 ≠ place) ++ [(place, content)] }

end FileTree

end ScopeMerge
