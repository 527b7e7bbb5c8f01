import ScopeMerge.Contribution.Lookup

/-!
# Contributed subcomponents

A subcomponent is contributed through its factory: an interface nested in it whose single
abstract function returns the subcomponent. Two scopes are involved. The subcomponent's own scope
is the merge that its contributions go to; the factory's scope is the merge that the subcomponent
becomes a part of.

A `SubcomponentShape` is a subcomponent that passed every check, with the factory and function
found on the way. Checking starts either from the subcomponent, when it is contributed, or from
the factory, when a merge meets the factory's lookup again.
-/

namespace ScopeMerge

/-- A sound subcomponent. -/
structure SubcomponentShape where
  subcomponent : Declaration
  factory : Declaration
  /-- The only abstract function of the factory. -/
  function : MemberFunction
  /-- The scope that the subcomponent's own contributions are merged from. -/
  scope : Scope
deriving DecidableEq, Inhabited

namespace SubcomponentShape

variable (table : SymbolTable)

/-- The factories nested in a declaration. -/
def factories (subcomponent : Declaration) : List Declaration :=
  (table.nestedIn subcomponent.name).filter (·.isAnnotatedWith Vocabulary.subcomponentFactory)

/-- The only factory of a subcomponent. -/
def soleFactory (subcomponent : Declaration) : Except MergeError Declaration :=
  match factories table subcomponent with
  | [] => .error (.missingFactory subcomponent.name)
  | [factory] => .ok factory
  | several => .error (.multipleFactories subcomponent.name (several.map (·.name)))

/-- The only abstract function of a factory. -/
def soleFunction (factory : Declaration) : Except MergeError MemberFunction :=
  match factory.abstractFunctions with
  | [function] => .ok function
  | functions => .error (.factoryFunctionCount factory.name functions.length)

/-- The function of a factory that creates the subcomponent. -/
def factoryFunction (subcomponent factory : Declaration) : Except MergeError MemberFunction := do
  Contribution.requirePublic factory
  refuseUnless factory.isInterface (.notInterface factory.name Vocabulary.subcomponentFactory)
  let function ← soleFunction factory
  refuseUnless (function.returnType = some subcomponent.name)
    (.factoryReturnType factory.name subcomponent.name function.returnType)
  return function

/-- Whether a declaration can be implemented by a generated class. -/
def isOpenType (d : Declaration) : Bool :=
  d.isInterface || (d.kind = .classType && d.isAbstract)

/-- Checks a subcomponent and its factory. -/
def ofSubcomponent (subcomponent : Declaration) : Except MergeError SubcomponentShape := do
  Contribution.requirePublic subcomponent
  refuseUnless (isOpenType subcomponent) (.notInterfaceOrAbstract subcomponent.name)
  let scope ← Scope.resolve table subcomponent
  let factory ← soleFactory table subcomponent
  let function ← factoryFunction subcomponent factory
  return { subcomponent, factory, function, scope }

/-- The subcomponent that a factory is nested in. -/
def enclosing (factory : Declaration) : Except MergeError Declaration :=
  match (factory.parent.bind table.find?).filter
      (·.isAnnotatedWith Vocabulary.contributesSubcomponent) with
  | some subcomponent => .ok subcomponent
  | none => .error (.factoryNotNested factory.name)

/-- Checks a factory and the subcomponent it is nested in. -/
def ofFactory (factory : Declaration) : Except MergeError SubcomponentShape := do
  let subcomponent ← enclosing table factory
  let shape ← ofSubcomponent table subcomponent
  refuseUnless (shape.factory.name = factory.name)
    (.multipleFactories subcomponent.name [shape.factory.name, factory.name])
  return shape

/-- The scope marker on a subcomponent, which generated components carry on. -/
def scopeAnnotation? (shape : SubcomponentShape) : Option AnnotationUsage :=
  shape.scope.markerAnnotation?.bind shape.subcomponent.annotation?

end SubcomponentShape

namespace Contribution

/-- The lookup for the factory of a contributed subcomponent. -/
def subcomponentLookup (table : SymbolTable) (subcomponent : Declaration) :
    Except MergeError Declaration := do
  let shape ← SubcomponentShape.ofSubcomponent table subcomponent
  let scope ← Scope.resolve table shape.factory
  let base := emptyLookup shape.factory.name.flatten shape.factory scope
  return { base with
    supertypes := [shape.factory.name]
    annotations := base.annotations ++ [{ type := Vocabulary.subcomponentFactoryMarker }] }

/-- The lookups for a contributed subcomponent. -/
def subcomponentLookups (table : SymbolTable) (subcomponent : Declaration) : Outcome :=
  (subcomponentLookup table subcomponent).map ([·])

/-- Checks that a factory is nested where it can be contributed from; contributes nothing. -/
def strayFactoryCheck (table : SymbolTable) (factory : Declaration) : Outcome :=
  (SubcomponentShape.enclosing table factory).map fun _ => []

end Contribution

end ScopeMerge
