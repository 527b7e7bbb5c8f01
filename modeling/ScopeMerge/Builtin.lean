import ScopeMerge.Vocabulary

/-!
# The annotation classes every compilation sees

The annotation library, the injector's runtime and the legacy library are visible to every
compilation without being part of it, like any other prior compilation result. Only what the
scope rules and the argument rules look at is declared here: which parameters an annotation has,
in which order, and which of them may be left out.
-/

namespace ScopeMerge.Builtin

open Vocabulary

/-- A public top-level annotation class with a full name given in two halves. -/
private def annotationClass (package simple : String)
    (parameters : List AnnotationParameter := []) : Declaration :=
  { Declaration.topLevel .annotationClass package simple with parameters }

private def required (name : String) : AnnotationParameter := { name }

private def optional (name : String) : AnnotationParameter := { name, hasDefault := true }

private def contributesSubcomponentClass : Declaration :=
  annotationClass "scopeweave.inject" "ContributesSubcomponent"

private def injectClasses : List Declaration :=
  [ annotationClass "scopeweave.inject" "ContributesTo" [optional scopeParameter],
    annotationClass "scopeweave.inject" "ContributesBinding"
      [optional scopeParameter, optional boundTypeParameter, optional multibindingParameter],
    contributesSubcomponentClass,
    { Declaration.nested .annotationClass contributesSubcomponentClass "Factory" with
      parameters := [required scopeParameter] },
    annotationClass "scopeweave.inject" "MergeComponent"
      [optional scopeParameter, optional excludeParameter],
    annotationClass "scopeweave.inject" "ContributingAnnotation",
    { annotationClass "scopeweave.inject" "SingleIn" [required scopeParameter] with
      annotations := [{ type := scopeMarker }] },
    annotationClass "scopeweave.inject.internal" "ContributionScope" [required scopeParameter],
    annotationClass "scopeweave.inject.internal" "SubcomponentFactoryMarker" ]

private def runtimeClasses : List Declaration :=
  ["Component", "Scope", "Provides", "IntoSet"].map fun simple =>
    annotationClass "scopeweave.runtime" simple

private def legacyClasses : List Declaration :=
  [ annotationClass "legacy.anvil" "ContributesBinding"
      ([required scopeParameter, optional boundTypeParameter] ++
        unsupportedLegacyParameters.map optional),
    annotationClass "legacy.anvil" "ContributesTo" [required scopeParameter, optional "replaces"] ]

/-- The annotation classes as a prior compilation result. -/
def unit : CompilationUnit :=
  { files :=
      [ { id := ⟨"builtin/scopeweave-inject"⟩, declarations := injectClasses },
        { id := ⟨"builtin/scopeweave-runtime"⟩, declarations := runtimeClasses },
        { id := ⟨"builtin/legacy-anvil"⟩, declarations := legacyClasses } ] }

end ScopeMerge.Builtin
