import ScopeMerge.Declaration

/-!
# The vocabulary of contribution and merging

The names the library gives a meaning to. They fall into five groups:

* the *contribution annotations* a user writes, and the annotation that requests a merge;
* what is written on *generated lookups*, so that a later compilation can recognise them;
* the annotations of the *injector* that consumes the generated declarations;
* the two *legacy* annotations that are accepted in place of the native ones;
* the two *namespaces* that generated declarations are collected in, so that every compilation
  finds them without searching.

Beside the names stand the naming rules for generated declarations.
-/

namespace ScopeMerge.Vocabulary

/-! ## Contribution annotations -/

def contributesTo : Name := ⟨"scopeweave.inject.ContributesTo"⟩

def contributesBinding : Name := ⟨"scopeweave.inject.ContributesBinding"⟩

def contributesSubcomponent : Name := ⟨"scopeweave.inject.ContributesSubcomponent"⟩

def subcomponentFactory : Name := ⟨"scopeweave.inject.ContributesSubcomponent.Factory"⟩

/-- Requests a merge into the annotated declaration. -/
def mergeComponent : Name := ⟨"scopeweave.inject.MergeComponent"⟩

/-- Declares an annotation class to be a contribution annotation itself. -/
def contributingAnnotation : Name := ⟨"scopeweave.inject.ContributingAnnotation"⟩

def singleIn : Name := ⟨"scopeweave.inject.SingleIn"⟩

/-! ## Written on generated lookups -/

def contributionScope : Name := ⟨"scopeweave.inject.internal.ContributionScope"⟩

def subcomponentFactoryMarker : Name := ⟨"scopeweave.inject.internal.SubcomponentFactoryMarker"⟩

/-! ## The injector -/

def component : Name := ⟨"scopeweave.runtime.Component"⟩

/-- Marks an annotation class as a scope marker. -/
def scopeMarker : Name := ⟨"scopeweave.runtime.Scope"⟩

def provides : Name := ⟨"scopeweave.runtime.Provides"⟩

def intoSet : Name := ⟨"scopeweave.runtime.IntoSet"⟩

/-! ## Legacy annotations -/

def legacyContributesBinding : Name := ⟨"legacy.anvil.ContributesBinding"⟩

def legacyContributesTo : Name := ⟨"legacy.anvil.ContributesTo"⟩

/-! ## Namespaces -/

/-- Holds every lookup. -/
def lookupNamespace : String := "scopeweave.inject.lookup"

/-- Holds the marker properties that record custom contribution annotations. -/
def extendNamespace : String := "scopeweave.inject.extend"

/-! ## Annotation parameters -/

def scopeParameter : String := "scope"

def boundTypeParameter : String := "boundType"

def multibindingParameter : String := "multibinding"

def excludeParameter : String := "exclude"

/-- Parameters of the legacy annotations that have no native counterpart. -/
def unsupportedLegacyParameters : List String :=
  ["replaces", "priority", "rank", "ignoreQualifier"]

/-! ## Naming rules -/

def mergedSuffix : String := "Merged"

def finalSuffix : String := "Final"

/-- Supertypes that say nothing about what a class can be bound to. -/
def trivialSupertypes : List Name := [⟨"Any"⟩, ⟨"kotlin.Any"⟩]

/-- The name of the lookup for a contributing declaration. -/
def lookupName (origin : Name) : Name :=
  ⟨lookupNamespace ++ "." ++ origin.flatten⟩

/-- The name of the marker property for a custom contribution annotation. -/
def markerName (annotationType : Name) : Name :=
  ⟨extendNamespace ++ "." ++ annotationType.flatten⟩

end ScopeMerge.Vocabulary
