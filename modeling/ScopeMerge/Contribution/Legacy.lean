import ScopeMerge.Contribution.Interface
import ScopeMerge.Contribution.Binding

/-!
# Legacy annotations

The two legacy annotations are read as if they were the native ones. They have a few parameters
that no native annotation has. Such a parameter is harmless while it keeps its neutral value, an
empty list or false; set to anything else it changes what the annotation means, and the
declaration contributes nothing, unless the options say to ignore it.
-/

namespace ScopeMerge

/-- The legacy annotations. -/
inductive LegacyAnnotation where
  | contributesTo
  | contributesBinding
deriving DecidableEq, Inhabited

namespace LegacyAnnotation

/-- The annotation class. -/
def name : LegacyAnnotation → Name
  | contributesTo => Vocabulary.legacyContributesTo
  | contributesBinding => Vocabulary.legacyContributesBinding

/-- The lookups for a declaration with a legacy annotation. -/
def lookups (table : SymbolTable) :
    LegacyAnnotation → Declaration → Contribution.Outcome
  | contributesTo => Contribution.interfaceLookups table contributesTo.name
  | contributesBinding => Contribution.bindingLookups table contributesBinding.name

/-- Whether a parameter's value changes what the annotation means. -/
def isSet : AnnotationValue → Bool
  | .types names => !names.isEmpty
  | .bool value => value
  | _ => true

/-- The unsupported parameters that the usages on a declaration set, each once. -/
def unsupportedParameters (table : SymbolTable) (legacy : LegacyAnnotation)
    (d : Declaration) : List String :=
  ((d.annotationsOf legacy.name).flatMap fun usage =>
    Vocabulary.unsupportedLegacyParameters.filter fun parameter =>
      (table.argument? usage parameter).any isSet).eraseDups

/-- The complaints about the unsupported parameters on a declaration. -/
def complaints (table : SymbolTable) (legacy : LegacyAnnotation) (d : Declaration) :
    List MergeError :=
  (legacy.unsupportedParameters table d).map
    (.unsupportedLegacyParameter d.name legacy.name ·)

end LegacyAnnotation

end ScopeMerge
