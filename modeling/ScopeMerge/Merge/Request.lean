import ScopeMerge.Checking
import ScopeMerge.Scope

/-!
# Merge requests

A declaration requests a merge by an annotation that says which scope to merge and what to leave
out. The result of the merge is one interface, the *aggregate*, which extends everything that was
selected. Its name is known beforehand, so that the request can extend it in source; a request
that is also the component for the injector has to.
-/

namespace ScopeMerge

/-- The name of the aggregate for a merge request. -/
def Declaration.aggregateName (d : Declaration) : Name :=
  Name.inPackage d.package (d.joinedSimpleName ++ Vocabulary.mergedSuffix)

/-- A merge request as it is understood. -/
structure MergeRequest where
  declaration : Declaration
  scope : Scope
  /-- What the merge leaves out, each name once and in order. -/
  exclusions : List Name
  aggregate : Name
deriving DecidableEq, Inhabited

namespace MergeRequest

/-- The only positional argument of a usage, if it is a list of types. -/
def soleTypeList? (usage : AnnotationUsage) : Option AnnotationValue :=
  match usage.positionals with
  | [.types names] => some (.types names)
  | _ => none

/-- The value of a request's annotation that lists what to leave out: the argument for it, or
else a list of types that is the only positional argument. -/
def exclusionList? (table : SymbolTable) (usage : AnnotationUsage) : Option AnnotationValue :=
  (table.argument? usage Vocabulary.excludeParameter).or (soleTypeList? usage)

/-- What a request leaves out. -/
def exclusionsOf (table : SymbolTable) (d : Declaration) : List Name :=
  Name.sortedSet <|
    (((d.annotation? Vocabulary.mergeComponent).bind (exclusionList? table)).bind
      (·.asTypes?)).getD []

/-- Whether a declaration extends its aggregate, by qualified or by simple name. -/
def extendsAggregate (d : Declaration) : Bool :=
  d.supertypes.any fun supertype =>
    supertype = d.aggregateName || supertype.text = d.aggregateName.simpleName

/-- Reads a merge request. -/
def parse (table : SymbolTable) (d : Declaration) : Except MergeError MergeRequest := do
  let scope ← Scope.resolve table d
  refuseUnless (!d.isAnnotatedWith Vocabulary.component || extendsAggregate d)
    (.supertypeNotDeclared d.name d.aggregateName)
  return { declaration := d, scope, exclusions := exclusionsOf table d,
           aggregate := d.aggregateName }

end MergeRequest

end ScopeMerge
