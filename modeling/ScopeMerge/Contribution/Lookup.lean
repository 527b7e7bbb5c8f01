import ScopeMerge.Checking
import ScopeMerge.Scope

/-!
# Lookups

A contribution is recorded as a *lookup*: a generated interface in a namespace that every
compilation can list. It carries the scope it was contributed to and a link to the declaration it
stands for, and it extends or provides whatever is contributed. A merge never searches for
contributions; it lists the lookups and follows their links.

This module says what makes a declaration a lookup and what every lookup has in common.
-/

namespace ScopeMerge

/-- Whether a declaration is a lookup, of this or of a prior compilation. -/
def Declaration.isLookup (d : Declaration) : Bool :=
  d.package == Vocabulary.lookupNamespace && d.isAnnotatedWith Vocabulary.contributionScope

/-- Whether a declaration is a lookup for a subcomponent factory. -/
def Declaration.isSubcomponentLookup (d : Declaration) : Bool :=
  d.isLookup && d.isAnnotatedWith Vocabulary.subcomponentFactoryMarker

namespace Contribution

/-- What a contribution is recorded as, or why it is refused. A declaration may contribute
several times over. -/
abbrev Outcome := Except MergeError (List Declaration)

/-- Refuses a declaration that others may not refer to. -/
def requirePublic (d : Declaration) : Except MergeError Unit :=
  refuseUnless d.isPublic (.notPublic d.name)

/-- The record of a scope on a lookup. -/
def scopeRecord (scope : Scope) : AnnotationUsage :=
  { type := Vocabulary.contributionScope
    arguments := [{ name := some Vocabulary.scopeParameter, value := .type scope.marker }] }

/-- A lookup with a simple name that so far contributes nothing. -/
def emptyLookup (simple : String) (origin : Declaration) (scope : Scope) : Declaration :=
  { Declaration.topLevel .interface Vocabulary.lookupNamespace simple with
    annotations := [scopeRecord scope], origin := some origin.name }

end Contribution

end ScopeMerge
