import ScopeMerge.Name

/-!
# Declarations

What a compilation unit consists of. A unit is a list of source files, a file is a list of
declarations, and a declaration carries everything the library ever asks about it: its kind and
visibility, the annotations on it with their arguments, its supertypes, functions and constructor,
and three links by name:

* `parent`: the declaration it is nested in;
* `origin`: for a generated declaration, the one it was generated for;
* for an annotation class, the `parameters` its usages may set.

Types are referred to by qualified name only; there is no resolution beyond looking a name up.
-/

namespace ScopeMerge

/-! ## Annotations -/

/-- A constant given to an annotation parameter. -/
inductive AnnotationValue where
  | type (name : Name)
  | types (names : List Name)
  | string (text : String)
  | bool (value : Bool)
  | int (value : Int64)
deriving DecidableEq, Inhabited

namespace AnnotationValue

/-- The type a value is a literal of. -/
def asType? : AnnotationValue → Option Name
  | type name => some name
  | _ => none

/-- The types a value lists; a single type literal is a list of one. -/
def asTypes? : AnnotationValue → Option (List Name)
  | type name => some [name]
  | types names => some names
  | _ => none

/-- The truth value a value is a literal of. -/
def asBool? : AnnotationValue → Option Bool
  | bool value => some value
  | _ => none

end AnnotationValue

/-- One argument of an annotation usage. Without a name it is positional; the empty text is a
name like any other. -/
structure Argument where
  name : Option String := none
  value : AnnotationValue
deriving DecidableEq, Inhabited

/-- One annotation written on a declaration, function or parameter. -/
structure AnnotationUsage where
  type : Name
  arguments : List Argument := []
deriving DecidableEq, Inhabited

namespace AnnotationUsage

/-- The value given under a name. -/
def named? (usage : AnnotationUsage) (name : String) : Option AnnotationValue :=
  (usage.arguments.find? (·.name = some name)).map (·.value)

/-- The values given without a name, in order. -/
def positionals (usage : AnnotationUsage) : List AnnotationValue :=
  (usage.arguments.filter (·.name.isNone)).map (·.value)

/-- The value at a position, counting the arguments without a name. -/
def positional? (usage : AnnotationUsage) (index : Nat) : Option AnnotationValue :=
  usage.positionals[index]?

end AnnotationUsage

/-- A parameter that an annotation class declares. -/
structure AnnotationParameter where
  name : String
  hasDefault : Bool := false
deriving DecidableEq, Inhabited

/-! ## Functions -/

/-- A parameter of a function or constructor. -/
structure Parameter where
  name : String
  type : Name
  annotations : List AnnotationUsage := []
deriving DecidableEq, Inhabited

/-- What a generated function does when it is called. -/
inductive FunctionBody where
  /-- Returns one of its own parameters. -/
  | forward (parameter : String)
  /-- Returns the only instance of an object. -/
  | singleton (object : Name)
  /-- Constructs a component, handing on the enclosing one and the function's own parameters. -/
  | createComponent (component parent : Name) (arguments : List String)
deriving DecidableEq, Inhabited

/-- A function of a declaration. -/
structure MemberFunction where
  name : String
  parameters : List Parameter := []
  returnType : Option Name := none
  isAbstract : Bool := false
  annotations : List AnnotationUsage := []
  body : Option FunctionBody := none
deriving DecidableEq, Inhabited

/-- The functions every type has. Declaring one again does not make a type more abstract. -/
def universalFunctions : List String :=
  ["equals", "hashCode", "toString"]

/-! ## Declarations -/

/-- The kinds of declaration. -/
inductive DeclarationKind where
  | interface
  | classType
  | object
  | annotationClass
  | function
  | property
deriving DecidableEq, Inhabited

/-- The kind in words. -/
def DeclarationKind.description : DeclarationKind → String
  | interface => "interface"
  | classType => "class"
  | object => "object"
  | annotationClass => "annotation class"
  | function => "function"
  | property => "property"

/-- Who may refer to a declaration. -/
inductive Visibility where
  | publicAccess
  | internalAccess
  | protectedAccess
  | privateAccess
deriving DecidableEq, Inhabited

/-- One declaration of a compilation unit, written by hand or generated. -/
structure Declaration where
  name : Name
  package : String
  kind : DeclarationKind
  visibility : Visibility := .publicAccess
  isAbstract : Bool := false
  annotations : List AnnotationUsage := []
  supertypes : List Name := []
  functions : List MemberFunction := []
  constructor : List Parameter := []
  parameters : List AnnotationParameter := []
  parent : Option Name := none
  origin : Option Name := none
deriving DecidableEq, Inhabited

namespace Declaration

/-- A top-level declaration of a package, public and otherwise empty. -/
def topLevel (kind : DeclarationKind) (package simple : String) : Declaration :=
  { name := Name.inPackage package simple, package, kind }

/-- A declaration nested in another one, public and otherwise empty. -/
def nested (kind : DeclarationKind) (parent : Declaration) (simple : String) : Declaration :=
  { topLevel kind parent.package simple with
    name := parent.name.child simple, parent := some parent.name }

/-- The usages of one annotation on a declaration, in order. -/
def annotationsOf (d : Declaration) (annotationType : Name) : List AnnotationUsage :=
  d.annotations.filter (·.type = annotationType)

/-- The first usage of an annotation on a declaration. -/
def annotation? (d : Declaration) (annotationType : Name) : Option AnnotationUsage :=
  d.annotations.find? (·.type = annotationType)

/-- Whether a declaration carries an annotation. -/
def isAnnotatedWith (d : Declaration) (annotationType : Name) : Bool :=
  d.annotations.any (·.type = annotationType)

/-- Whether everyone may refer to a declaration. -/
def isPublic (d : Declaration) : Bool :=
  d.visibility = .publicAccess

/-- Whether a declaration is an interface. -/
def isInterface (d : Declaration) : Bool :=
  d.kind = .interface

/-- The functions an implementation has to supply. -/
def abstractFunctions (d : Declaration) : List MemberFunction :=
  d.functions.filter fun f => f.isAbstract && !universalFunctions.contains f.name

/-- The qualified name without the package it starts with, if it starts with it. -/
def relativeName (d : Declaration) : String :=
  let package := (d.package ++ ".").toList
  if d.package ≠ "" ∧ package.isPrefixOf d.name.text.toList then
    String.ofList (d.name.text.toList.drop package.length)
  else d.name.text

/-- The simple names of the enclosing declarations and of this one, written as one word. -/
def joinedSimpleName (d : Declaration) : String :=
  String.ofList (d.relativeName.toList.filter (· ≠ '.'))

end Declaration

/-! ## Files and units -/

/-- A source file. -/
structure SourceFile where
  id : FileId
  declarations : List Declaration := []
deriving DecidableEq, Inhabited

namespace SourceFile

/-- The generated file of a declaration and of what is nested in it, named after the first. -/
def generated (primary : Declaration) (others : List Declaration := []) : SourceFile :=
  { id := .generated primary.name, declarations := primary :: others }

/-- The generated file of some declarations; without a first one there is nothing to name it
after. -/
def generated? : List Declaration → Option SourceFile
  | [] => none
  | primary :: others => some (generated primary others)

end SourceFile

/-- A compilation unit: the files one compilation reads or leaves behind. -/
structure CompilationUnit where
  files : List SourceFile := []
deriving DecidableEq, Inhabited

/-- The names a unit declares, in order. -/
def CompilationUnit.names (unit : CompilationUnit) : List Name :=
  unit.files.flatMap (·.declarations.map (·.name))

end ScopeMerge
