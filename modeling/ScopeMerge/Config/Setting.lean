import ScopeMerge.Text.Quoted
import ScopeMerge.Toml

/-!
# Settings

What a layer of the configuration says, before it is known what was wanted: a tree of tables with
loose values at its leaves. A later layer is laid over an earlier one. Where both have a table the
tables are merged key by key; anywhere else the later layer wins, whatever the earlier one held.

A document can also give a setting in wrapped form: as a table that holds it under a reserved key.
-/

namespace ScopeMerge

/-- A loose value of the configuration. -/
inductive Setting where
  | text (value : String)
  /-- An integer from a place that keeps signs. -/
  | signed (value : Int)
  /-- An integer from a place that tells natural numbers apart. -/
  | unsigned (value : Nat)
  | float (value : Binary64)
  | bool (value : Bool)
  | sequence (items : List Setting)
  | table (entries : List (String × Setting))
deriving Inhabited

namespace Setting

/-- A setting in the words of a message. -/
def describe : Setting → String
  | text value => "string " ++ Text.quoted value
  | signed value => "signed int `" ++ toString value ++ "`"
  | unsigned value => "unsigned int `" ++ toString value ++ "`"
  | float value => "float `" ++ value.render ++ "`"
  | bool value => if value then "bool true" else "bool false"
  | sequence _ => "sequence"
  | table _ => "map"

/-! ## Settings of a document -/

/-- The reserved key under which a table holds the value that it stands for. -/
def valueKey : String := "___figment_value_value"

/-- The reserved key of the mark that tells where a value comes from. Marks are handed out while
layers are collected, so no value of a document is one. -/
def markKey : String := "___figment_value_id"

/-- What the entries of a table below the top of a document give: the setting that the table
stands for, whatever else it holds, or else the table itself. -/
def ofTable (entries : List (String × Setting)) : Setting :=
  (entries.lookup valueKey).getD (.table entries)

mutual

/-- The setting that a value of a document gives. A table that claims to hold a mark gives none,
and neither does anything around it. -/
def ofToml? : Toml.Value → Option Setting
  | .text value => some (.text value)
  | .integer value => some (.signed value)
  | .float value => some (.float value)
  | .bool value => some (.bool value)
  | .array items => (ofItems? items).map .sequence
  | .table entries =>
    if (entries.lookup markKey).isSome then none else (ofEntries? entries).map ofTable

def ofItems? : List Toml.Value → Option (List Setting)
  | [] => some []
  | item :: rest => do return (← ofToml? item) :: (← ofItems? rest)

def ofEntries? : List (String × Toml.Value) → Option (List (String × Setting))
  | [] => some []
  | (key, value) :: rest => do return (key, ← ofToml? value) :: (← ofEntries? rest)

end

/-- The setting that a document gives. The document itself is always a table: reserved keys mean
nothing at its top. -/
def ofDocument? : Toml.Value → Option Setting
  | .table entries => (ofEntries? entries).map .table
  | value => ofToml? value

/-! ## Layers -/

/-- Puts a setting under a key, in place of any earlier one. -/
def put (entries : List (String × Setting)) (key : String) (setting : Setting) :
    List (String × Setting) :=
  entries.filter (·.1 ≠ key) ++ [(key, setting)]

/-- The entries of a table; anything else has none. -/
def entries : Setting → List (String × Setting)
  | table entries => entries
  | _ => []

mutual

/-- A setting laid over an earlier one. -/
def laidOver (earlier : Setting) : Setting → Setting
  | .table later => .table (entriesOver earlier.entries later)
  | setting => setting

/-- The entries of a table laid over those of an earlier one. -/
def entriesOver (earlier : List (String × Setting)) :
    List (String × Setting) → List (String × Setting)
  | [] => earlier
  | (key, setting) :: rest =>
    let merged :=
      match earlier.lookup key with
      | some below => laidOver below setting
      | none => setting
    entriesOver (put earlier key merged) rest

end

/-! ## Paths -/

/-- A setting at the end of a path of keys. -/
def atPath : List String → Setting → Setting
  | [], setting => setting
  | key :: rest, setting => .table [(key, atPath rest setting)]

/-- Whether a setting has something at the end of a path. The items of a sequence have their
positions as keys. -/
def reaches : Setting → List String → Bool
  | _, [] => true
  | .table entries, key :: rest =>
    match entries.lookup key with
    | some inner => inner.reaches rest
    | none => false
  | .sequence items, key :: rest =>
    match key.toNat?.bind (items[·]?) with
    | some inner => inner.reaches rest
    | none => false
  | _, _ :: _ => false
termination_by _ path => path.length

end Setting

end ScopeMerge
