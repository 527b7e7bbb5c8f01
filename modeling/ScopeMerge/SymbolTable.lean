import ScopeMerge.Builtin
import ScopeMerge.MergeError

/-!
# The symbol table

Everything one compilation can see: the built-in annotation classes, the results of prior
compilations, and its own files, sources and generated files alike. The table is the list of the
files in the order they were added, together with the view of the current round; every query is a
function of the two.

* A file identity is taken once, and a name that an earlier file declares is refused. A file that
  declares one name several times is accepted, and its last declaration of the name is the one
  that a lookup by name finds.
* Only local files, those of the current compilation, are ever *delivered*. A local file is
  delivered whole in the round that starts after it was added; a single declaration is delivered
  once more when it was deferred.
* Visibility knows no rounds: a declaration can be looked up as soon as its file was added.
-/

namespace ScopeMerge

/-! ## Declarations that share a name -/

/-- The last declaration of a name in a list. -/
def lastNamed? (name : Name) : List Declaration → Option Declaration
  | [] => none
  | d :: rest => (lastNamed? name rest).or (if d.name = name then some d else none)

/-- The declarations of a list that no later one hides by declaring the same name. -/
def lastOfEachName : List Declaration → List Declaration
  | [] => []
  | d :: rest =>
    if rest.any (·.name = d.name) then lastOfEachName rest else d :: lastOfEachName rest

/-! ## The table -/

/-- A file in the table; a local one belongs to the current compilation. -/
structure SymbolTable.Entry where
  file : SourceFile
  isLocal : Bool
deriving DecidableEq, Inhabited

/-- The files a compilation sees and the round it is in. -/
structure SymbolTable where
  /-- Every file, in the order added. -/
  entries : List SymbolTable.Entry
  /-- Local files added since the current round started. -/
  incoming : List FileId := []
  /-- Local files that are new in the current round. -/
  introduced : List FileId := []
  /-- Declarations delivered again in the current round. -/
  redelivered : List Name := []
deriving DecidableEq, Inhabited

namespace SymbolTable

/-- A table that sees the built-in annotation classes and nothing else. -/
def initial : SymbolTable :=
  { entries := Builtin.unit.files.map fun file => { file, isLocal := false } }

/-! ## Lookup by name -/

/-- Every declaration in the table, hidden ones included, in the order added. -/
def declarations (table : SymbolTable) : List Declaration :=
  table.entries.flatMap (·.file.declarations)

/-- Every declaration that can be found by its name, in the order added. -/
def visible (table : SymbolTable) : List Declaration :=
  table.entries.flatMap (lastOfEachName ·.file.declarations)

/-- The visible declaration with a name. -/
def find? (table : SymbolTable) (name : Name) : Option Declaration :=
  table.entries.findSome? (lastNamed? name ·.file.declarations)

/-- Whether a file identity is taken. -/
def hasFile (table : SymbolTable) (id : FileId) : Bool :=
  table.entries.any (·.file.id = id)

/-- The declarations an entry lists, each as it is found by its name. -/
def listed (table : SymbolTable) (entry : Entry) : List Declaration :=
  entry.file.declarations.filterMap fun d => table.find? d.name

/-- The declarations of one file. -/
def inFile (table : SymbolTable) (id : FileId) : List Declaration :=
  (table.entries.filter (·.file.id = id)).flatMap table.listed

/-- The top-level declarations of a namespace in all visible compilations, ordered by name. -/
def inNamespace (table : SymbolTable) (namespaceName : String) : List Declaration :=
  (table.visible.filter fun d => d.package = namespaceName ∧ d.parent = none).mergeSort
    fun a b => a.name.le b.name

/-- The declarations nested directly in a declaration, in the order added. -/
def nestedIn (table : SymbolTable) (parent : Name) : List Declaration :=
  (table.declarations.filter (·.parent = some parent)).filterMap fun d => table.find? d.name

/-! ## Adding files -/

/-- Adds one file. -/
def addFile (table : SymbolTable) (file : SourceFile) (isLocal : Bool) :
    Except MergeError SymbolTable :=
  if table.hasFile file.id then .error (.fileAlreadyExists file.id)
  else
    match file.declarations.find? fun d => (table.find? d.name).isSome with
    | some duplicate => .error (.duplicateDeclaration duplicate.name)
    | none =>
      .ok { table with
        entries := table.entries ++ [{ file, isLocal }]
        incoming := if isLocal then table.incoming ++ [file.id] else table.incoming }

/-- Adds files up to the first one that is refused; those before it stay. -/
def addFiles (table : SymbolTable) (isLocal : Bool) :
    List SourceFile → SymbolTable × Option MergeError
  | [] => (table, none)
  | file :: rest =>
    match table.addFile file isLocal with
    | .error error => (table, some error)
    | .ok extended => extended.addFiles isLocal rest

/-- Adds every file of a unit, or fails. -/
def addUnit (table : SymbolTable) (unit : CompilationUnit) (isLocal : Bool) :
    Except MergeError SymbolTable :=
  match table.addFiles isLocal unit.files with
  | (extended, none) => .ok extended
  | (_, some error) => .error error

/-- The files of the current compilation, in the order added. -/
def localUnit (table : SymbolTable) : CompilationUnit :=
  { files := (table.entries.filter (·.isLocal)).map fun entry =>
      { id := entry.file.id, declarations := table.listed entry } }

/-! ## Rounds -/

/-- Starts a round: the files that arrived become new, and the deferred declarations are
delivered again. -/
def beginRound (table : SymbolTable) (deferred : List Name) : SymbolTable :=
  { table with introduced := table.incoming, incoming := [], redelivered := deferred }

/-- The files that are new in the current round, ordered by identity. -/
def introducedFiles (table : SymbolTable) : List FileId :=
  table.introduced.mergeSort FileId.le

/-- The declarations of the new files. -/
def introducedDeclarations (table : SymbolTable) : List Declaration :=
  table.introducedFiles.flatMap table.inFile

/-- Whether a declaration of a local file is delivered in the current round. -/
def delivers (table : SymbolTable) (file : FileId) (name : Name) : Bool :=
  table.introduced.contains file || table.redelivered.contains name

/-- The local declarations with an annotation that are delivered in the current round, by the
order in which their files were added. -/
def delivered (table : SymbolTable) (annotationType : Name) : List Declaration :=
  (table.entries.filter (·.isLocal)).flatMap fun entry =>
    (table.listed entry).filter fun d =>
      table.delivers entry.file.id d.name && d.isAnnotatedWith annotationType

/-! ## Annotation classes -/

/-- Whether an annotation class is a scope marker: a visible class that is itself annotated as
one. -/
def isScopeMarker (table : SymbolTable) (annotationType : Name) : Bool :=
  (table.find? annotationType).any (·.isAnnotatedWith Vocabulary.scopeMarker)

/-- The parameters of an annotation class, none if it is not visible. -/
def parametersOf (table : SymbolTable) (annotationType : Name) : List AnnotationParameter :=
  ((table.find? annotationType).map (·.parameters)).getD []

/-- The parameter of an annotation class with a name. -/
def parameter? (table : SymbolTable) (annotationType : Name) (parameter : String) :
    Option AnnotationParameter :=
  (table.parametersOf annotationType).find? (·.name = parameter)

/-- The value a usage gives to a parameter: by name, or else as the unnamed argument at the
position at which the annotation class declares the parameter. -/
def argument? (table : SymbolTable) (usage : AnnotationUsage) (parameter : String) :
    Option AnnotationValue :=
  (usage.named? parameter).or <|
    ((table.parametersOf usage.type).findIdx? (·.name = parameter)).bind usage.positional?

end SymbolTable

end ScopeMerge
