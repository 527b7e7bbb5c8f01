import ScopeMerge.Decimal.Binary64

/-!
# Configuration documents

The values of a TOML document and the rules by which its statements build one table. A document
is a sequence of headers and assignments. What makes it more than a list of paths is that a table
may be *defined* only once:

* a header defines the table it names, and the tables on the way to it come into being without
  being defined;
* a dotted key in an assignment brings tables into being that belong to dotted keys, and can
  reach only such tables; a header cannot define them any more;
* a table written as a value in braces is complete, and nothing can be added to it.
-/

namespace ScopeMerge.Toml

/-- A value. -/
inductive Value where
  | text (value : String)
  | integer (value : Int)
  | float (value : Binary64)
  | bool (value : Bool)
  | array (items : List Value)
  | table (entries : List (String × Value))
deriving Inhabited

/-- What stands under a key of a table that is being built. -/
inductive Node where
  | value (value : Value)
  /-- A table: whether a header has defined it, whether it belongs to dotted keys, and what it
  holds so far. -/
  | table (isDefined isDotted : Bool) (entries : List (String × Node))
deriving Inhabited

/-- What a table that is being built holds so far. -/
abbrev Nodes := List (String × Node)

/-- Puts a node under a key, in place of any earlier one. -/
def Nodes.put (entries : Nodes) (key : String) (node : Node) : Nodes :=
  if (entries.lookup key).isSome then
    entries.map fun entry => if entry.1 = key then (key, node) else entry
  else entries ++ [(key, node)]

/-! ## Headers -/

/-- Defines the table that a header names. -/
def define : Nodes → List String → Option Nodes
  | _, [] => none
  | entries, [key] =>
    match entries.lookup key with
    | none => some (entries.put key (.table true false []))
    | some (.table false false inner) => some (entries.put key (.table true false inner))
    | some _ => none
  | entries, key :: rest =>
    match entries.lookup key with
    | none => (define [] rest).map fun inner => entries.put key (.table false false inner)
    | some (.table isDefined isDotted inner) =>
      (define inner rest).map fun more => entries.put key (.table isDefined isDotted more)
    | some (.value _) => none

/-! ## Assignments -/

/-- Assigns a value to the last of some keys, where the table at hand may take it directly or
only if it belongs to dotted keys. -/
def assignIn (mayTake : Bool) : Nodes → List String → Value → Option Nodes
  | _, [], _ => none
  | entries, [key], value =>
    if mayTake && (entries.lookup key).isNone then some (entries.put key (.value value)) else none
  | entries, key :: rest, value =>
    match entries.lookup key with
    | none => (assignIn true [] rest value).map fun inner =>
        entries.put key (.table false true inner)
    | some (.table false isDotted inner) =>
      (assignIn isDotted inner rest value).map fun more =>
        entries.put key (.table false isDotted more)
    | some _ => none

/-- Assigns a value to a dotted key in the table of a section. -/
def assign : Nodes → List String → List String → Value → Option Nodes
  | entries, [], keys, value => assignIn true entries keys value
  | entries, key :: rest, keys, value =>
    match entries.lookup key with
    | some (.table isDefined isDotted inner) =>
      (assign inner rest keys value).map fun more =>
        entries.put key (.table isDefined isDotted more)
    | _ => none

/-! ## The finished table -/

mutual

/-- The value of a node when nothing more is added. -/
def Node.finish : Node → Value
  | .value value => value
  | .table _ _ entries => .table (finishAll entries)

/-- The entries of a table when nothing more is added. -/
def finishAll : List (String × Node) → List (String × Value)
  | [] => []
  | (key, node) :: rest => (key, node.finish) :: finishAll rest

end

/-- A table given by assignments alone. -/
def ofAssignments? (assignments : List (List String × Value)) : Option Value :=
  (assignments.foldlM (fun (entries : Nodes) entry => assignIn true entries entry.1 entry.2) []).map
    fun entries => .table (finishAll entries)

/-- One statement of a document. -/
inductive Statement where
  | header (path : List String)
  | assignment (keys : List String) (value : Value)

/-- The entries of the document that consists of some statements, read within a section. -/
def build? : List Statement → List String → Nodes → Option Nodes
  | [], _, entries => some entries
  | .header path :: rest, _, entries => (define entries path).bind (build? rest path)
  | .assignment keys value :: rest, sectionPath, entries =>
    (assign entries sectionPath keys value).bind (build? rest sectionPath)

end ScopeMerge.Toml
