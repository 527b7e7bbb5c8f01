import ScopeMerge.Options
import ScopeMerge.Processor
import ScopeMerge.SymbolTable

/-!
# The registry of contribution annotations

A merge waits while contributions still arrive, so it has to know which annotations make a
declaration a contribution. The registry is assembled anew in every round from

* the built-in contribution annotations, and the legacy ones unless their processor is off;
* the annotations that the options list;
* the markers of custom contribution annotations in all visible compilations;
* the custom annotation classes delivered in this very round, whose markers are not visible yet.
-/

namespace ScopeMerge

/-- The annotations that make a declaration a contribution. -/
structure Registry where
  /-- The annotations, each once. -/
  annotations : List Name
deriving DecidableEq, Inhabited

namespace Registry

/-- The contribution annotations that need no registration. -/
def builtin : List Name :=
  [Vocabulary.contributesTo, Vocabulary.contributesBinding, Vocabulary.contributesSubcomponent,
    Vocabulary.subcomponentFactory]

/-- The legacy contribution annotations in use. -/
def legacy (options : Options) : List Name :=
  if options.isDisabled Processor.legacy.id then []
  else [Vocabulary.legacyContributesBinding, Vocabulary.legacyContributesTo]

/-- The custom annotations that a marker records. -/
def marked (table : SymbolTable) : List Name :=
  ((table.inNamespace Vocabulary.extendNamespace).filter (·.kind = .property)).filterMap (·.origin)

/-- The custom annotations delivered in this round. -/
def fresh (table : SymbolTable) : List Name :=
  ((table.delivered Vocabulary.contributingAnnotation).filter
    (·.kind = .annotationClass)).map (·.name)

/-- The registry of the current round. -/
def assemble (options : Options) (table : SymbolTable) : Registry :=
  { annotations := (builtin ++ legacy options ++ options.contributingAnnotations ++
      marked table ++ fresh table).eraseDups }

/-- Whether an annotation makes a declaration a contribution. -/
def contains (registry : Registry) (annotationType : Name) : Bool :=
  registry.annotations.contains annotationType

/-- Whether a declaration is a contribution. -/
def isContribution (registry : Registry) (d : Declaration) : Bool :=
  d.annotations.any fun usage => registry.contains usage.type

end Registry

end ScopeMerge
