import ScopeMerge.Contribution.Lookup

/-!
# Custom contribution annotations

An annotation class can be declared to be a contribution annotation, for the benefit of a
processor that this library knows nothing of. Such a class is recorded as a *marker*: a property
in a namespace of its own, with a link to the class. Later rounds and later compilations read the
markers back.
-/

namespace ScopeMerge.Contribution

/-- The marker for a custom contribution annotation. -/
def marker (d : Declaration) : Except MergeError Declaration := do
  refuseUnless (d.kind = .annotationClass)
    (.notAnnotationClass d.name Vocabulary.contributingAnnotation)
  requirePublic d
  return { Declaration.topLevel .property Vocabulary.extendNamespace d.name.flatten with
    origin := some d.name }

/-- The markers for a custom contribution annotation. -/
def markers (d : Declaration) : Outcome :=
  (marker d).map ([·])

end ScopeMerge.Contribution
