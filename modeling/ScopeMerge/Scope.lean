import ScopeMerge.SymbolTable

/-!
# Scopes

A scope names the merge that a declaration takes part in. A declaration states its scope in one
of two ways:

* *explicitly*, as the scope argument of an annotation whose class declares a scope parameter;
* at *class level*, by a scope marker: an annotation whose class is itself annotated as one. The
  marker stands for its own scope argument, or for itself when it has none.

The two are alternatives. Class-level markers must agree with each other, explicit scopes must
agree with each other, and a declaration that has one kind must not have the other. An annotation
with a scope parameter may leave the scope out only if the parameter has a default and no other
annotation on the declaration gives a scope.
-/

namespace ScopeMerge

/-- How a declaration states its scope. -/
inductive ScopeSource where
  /-- By the scope argument of an annotation. -/
  | argument (annotationType : Name)
  /-- By a scope marker. -/
  | marker (annotationType : Name)
deriving DecidableEq, Inhabited

/-- The annotation that states a scope. -/
def ScopeSource.annotationType : ScopeSource → Name
  | argument annotationType => annotationType
  | marker annotationType => annotationType

/-- The scope of a declaration. Two scopes are the same merge when their markers are the same. -/
structure Scope where
  marker : Name
  source : ScopeSource
deriving DecidableEq, Inhabited

namespace Scope

/-- Whether a scope comes from a scope marker. -/
def isClassLevel (scope : Scope) : Bool :=
  match scope.source with
  | .marker _ => true
  | .argument _ => false

/-- The scope marker a scope comes from. -/
def markerAnnotation? (scope : Scope) : Option Name :=
  match scope.source with
  | .marker annotationType => some annotationType
  | .argument _ => none

/-! ## What the annotations of a declaration say -/

variable (table : SymbolTable)

/-- The scope that one usage gives as an argument, by name or by position. -/
def ofArgument? (usage : AnnotationUsage) : Option Name :=
  (table.argument? usage Vocabulary.scopeParameter).bind (·.asType?)

/-- Whether a usage is a scope marker. -/
def isMarker (usage : AnnotationUsage) : Bool :=
  table.isScopeMarker usage.type

/-- Whether a usage could give a scope as an argument. -/
def takesScope (usage : AnnotationUsage) : Bool :=
  !isMarker table usage && (table.parameter? usage.type Vocabulary.scopeParameter).isSome

/-- Whether a usage that could give a scope is free not to. -/
def mayOmitScope (usage : AnnotationUsage) : Bool :=
  (table.parameter? usage.type Vocabulary.scopeParameter).any (·.hasDefault)

/-- The scope a marker stands for. -/
def ofMarker (usage : AnnotationUsage) : Scope :=
  { marker := (ofArgument? table usage).getD usage.type, source := .marker usage.type }

/-- The class-level scopes of a declaration, in order. -/
def classLevel (d : Declaration) : List Scope :=
  (d.annotations.filter (isMarker table)).map (ofMarker table)

/-- The usages on a declaration that could give a scope. -/
def contributing (d : Declaration) : List AnnotationUsage :=
  d.annotations.filter (takesScope table)

/-- The explicit scopes of a declaration, in order. -/
def explicit (d : Declaration) : List Scope :=
  (contributing table d).filterMap fun usage =>
    (ofArgument? table usage).map fun marker => { marker, source := .argument usage.type }

/-- The annotations on a declaration that leave their scope out, each once. -/
def omitting (d : Declaration) : List Name :=
  ((contributing table d).filter fun usage => (ofArgument? table usage).isNone)
    |>.map (·.type) |>.eraseDups

/-- The first annotation on a declaration that lacks a scope it has to give. -/
def lacking? (d : Declaration) : Option Name :=
  ((contributing table d).find? fun usage =>
    (ofArgument? table usage).isNone && !mayOmitScope table usage).map (·.type)

/-- The different merges among some scopes, in order. -/
def markers (scopes : List Scope) : List Name :=
  (scopes.map (·.marker)).eraseDups

/-! ## The scope of a declaration -/

/-- The scope of a declaration that gives none explicitly. -/
def ofClassLevel (d : Declaration) : Except MergeError Scope :=
  match classLevel table d with
  | [] => .error (.missingScope d.name)
  | scope :: _ => .ok scope

/-- The scope of a declaration with the given explicit scope and no disagreement among the
explicit ones. -/
def ofExplicit (d : Declaration) (scope : Scope) : Except MergeError Scope :=
  match classLevel table d with
  | [] => .ok scope
  | own :: _ =>
    if own.marker = scope.marker then .error (.redundantExplicitScope d.name scope.marker)
    else .error (.scopeMismatch d.name scope.marker own.marker)

/-- The one scope of a declaration. -/
def resolve (d : Declaration) : Except MergeError Scope :=
  let own := markers (classLevel table d)
  if own.length > 1 then .error (.conflictingScopes d.name own [])
  else
    match lacking? table d with
    | some annotationType => .error (.noScopeArgument d.name annotationType)
    | none =>
      match explicit table d with
      | [] => ofClassLevel table d
      | scope :: rest =>
        let given := markers (scope :: rest)
        let omitted := omitting table d
        if omitted ≠ [] ∨ given.length > 1 then
          .error (.conflictingScopes d.name (given ++ own).eraseDups omitted)
        else ofExplicit table d scope

/-- The scope of a declaration, if it has exactly one. -/
def resolve? (d : Declaration) : Option Scope :=
  (resolve table d).toOption

end Scope

end ScopeMerge
