import ScopeMerge.Contribution.Subcomponent
import ScopeMerge.Merge.Selection

/-!
# Final components

A subcomponent that becomes part of a merge is implemented once for the declaration it becomes
part of, its *parent*. Three declarations are generated, all named under the parent:

* the *final component*, a class that extends the subcomponent and is constructed from the parent
  and from the parameters of the factory's function;
* inside it a *factory*, which implements the subcomponent's factory by constructing it;
* the *merged interface*, which extends everything the subcomponent's own scope selects.

The subcomponent's own scope may select subcomponents again. They are finalized in the same way
with the final component as their parent, so generated names spell out the path from the merge
request downwards. A subcomponent that is met again on its own path would never end; it is
reported as a cycle.
-/

namespace ScopeMerge

/-- What finalizing the subcomponents of one parent gives. -/
structure FinalComponents where
  /-- The factories, for the parent's merged interface to extend. -/
  factories : List Name := []
  /-- Everything generated, nested final components included. -/
  declarations : List Declaration := []
deriving DecidableEq, Inhabited

namespace FinalComponents

open Checking

/-! ## From a lookup back to the subcomponent -/

/-- The subcomponent that a lookup stands for. -/
def shapeOf (table : SymbolTable) (lookup : Declaration) : Except MergeError SubcomponentShape :=
  match (Merge.originChain table lookup).getLast?.filter (!·.isSubcomponentLookup) with
  | some factory => SubcomponentShape.ofFactory table factory
  | none => .error (.unknownDeclaration (lookup.origin.getD lookup.name))

private theorem ofSubcomponent_subcomponent {table : SymbolTable} {d : Declaration}
    {shape : SubcomponentShape} (h : SubcomponentShape.ofSubcomponent table d = .ok shape) :
    shape.subcomponent = d := by
  simp only [SubcomponentShape.ofSubcomponent, bind_eq_ok, pure_eq_ok] at h
  obtain ⟨_, _, _, _, scope, _, factory, _, function, _, rfl⟩ := h
  rfl

private theorem mem_of_enclosing {table : SymbolTable} {factory subcomponent : Declaration}
    (h : SubcomponentShape.enclosing table factory = .ok subcomponent) :
    subcomponent ∈ table.declarations := by
  unfold SubcomponentShape.enclosing at h
  split at h
  · next found hfound =>
    obtain rfl := Except.ok.inj h
    obtain ⟨hbind, _⟩ := Option.filter_eq_some_iff.mp hfound
    obtain ⟨name, _, hfind⟩ := Option.bind_eq_some_iff.mp hbind
    exact (SymbolTable.find?_eq_some hfind).1
  · exact nomatch h

private theorem ofFactory_subcomponent_mem {table : SymbolTable} {factory : Declaration}
    {shape : SubcomponentShape} (h : SubcomponentShape.ofFactory table factory = .ok shape) :
    shape.subcomponent ∈ table.declarations := by
  simp only [SubcomponentShape.ofFactory, bind_eq_ok, pure_eq_ok] at h
  obtain ⟨subcomponent, hsubcomponent, checked, hchecked, _, _, rfl⟩ := h
  rw [ofSubcomponent_subcomponent hchecked]
  exact mem_of_enclosing hsubcomponent

/-- The subcomponent a lookup stands for is visible. -/
theorem mem_of_shapeOf {table : SymbolTable} {lookup : Declaration} {shape : SubcomponentShape}
    (h : shapeOf table lookup = .ok shape) : shape.subcomponent ∈ table.declarations := by
  unfold shapeOf at h
  split at h
  · exact ofFactory_subcomponent_mem h
  · exact nomatch h

/-! ## The generated declarations -/

/-- The name of the final component of a subcomponent under a parent. -/
def finalName (parent : Name) (shape : SubcomponentShape) : Name :=
  parent.child (shape.subcomponent.joinedSimpleName ++ Vocabulary.finalSuffix)

/-- The name of the factory inside a final component. -/
def factoryName (final : Name) : Name :=
  final.child "Factory"

/-- The name of the merged interface beside a final component. -/
def mergedName (final : Name) : Name :=
  final.withSuffix Vocabulary.mergedSuffix

/-- An empty declaration under a parent, in the package of the merge request. -/
def under (kind : DeclarationKind) (package : String) (parent name : Name) : Declaration :=
  { name, package, kind, parent := some parent }

/-- A parameter that is handed on to the injector under an annotation. -/
def injected (annotationType : Name) (parameter : Parameter) : Parameter :=
  { parameter with annotations := parameter.annotations ++ [{ type := annotationType }] }

/-- The class that implements a subcomponent. -/
def component (package : String) (parent : Name) (shape : SubcomponentShape) : Declaration :=
  let final := finalName parent shape
  { under .classType package parent final with
    isAbstract := true
    annotations := { type := Vocabulary.component } :: shape.scopeAnnotation?.toList
    supertypes := [shape.subcomponent.name, mergedName final]
    constructor :=
      injected Vocabulary.component { name := "parentComponent", type := parent } ::
        shape.function.parameters.map (injected Vocabulary.provides)
    origin := some shape.subcomponent.name }

/-- The factory that constructs a final component. -/
def factory (package : String) (parent : Name) (shape : SubcomponentShape) : Declaration :=
  let final := finalName parent shape
  let create : MemberFunction :=
    { name := shape.function.name
      parameters := shape.function.parameters
      returnType := shape.function.returnType
      body := some (.createComponent final parent (shape.function.parameters.map (·.name))) }
  { under .interface package final (factoryName final) with
    supertypes := [shape.factory.name], functions := [create] }

/-- The interface that extends what the subcomponent's scope selects, and the factories of the
subcomponents among it. -/
def merged (package : String) (parent : Name) (shape : SubcomponentShape)
    (contributions : List Declaration) (factories : List Name) : Declaration :=
  { under .interface package parent (mergedName (finalName parent shape)) with
    supertypes := contributions.map (·.name) ++ factories }

/-! ## Finalizing -/

/-- What the own scope of a subcomponent selects. -/
def ownContributions (table : SymbolTable) (shape : SubcomponentShape) : List Declaration :=
  Merge.select table shape.scope.marker []

/-- Finalizes every subcomponent among the contributions to a parent. The lineage lists the
subcomponents on the path down to the parent. -/
def generate (table : SymbolTable) (package : String) (lineage : List Name) (parent : Name) :
    List Declaration → Except MergeError FinalComponents
  | [] => .ok {}
  | lookup :: rest =>
    if lookup.isSubcomponentLookup then
      match _ : shapeOf table lookup with
      | .error error => .error error
      | .ok shape =>
        let path := lineage ++ [shape.subcomponent.name]
        if _ : shape.subcomponent.name ∈ lineage then
          .error (.subcomponentCycle shape.subcomponent.name path)
        else do
          let final := finalName parent shape
          let contributions := ownContributions table shape
          let nested ← generate table package path final contributions
          let others ← generate table package lineage parent rest
          return {
            factories := factoryName final :: others.factories
            declarations :=
              component package parent shape :: factory package parent shape ::
                merged package parent shape contributions nested.factories ::
                (nested.declarations ++ others.declarations) }
    else generate table package lineage parent rest
termination_by contributions => (table.unseen lineage, contributions.length)
decreasing_by
  all_goals simp_wf
  · exact Prod.Lex.left _ _ <|
      SymbolTable.unseen_lt (mem_of_shapeOf ‹_›) ‹_› (by simp) fun _ hn => by simp [hn]
  · exact Prod.Lex.right _ (by simp)
  · exact Prod.Lex.right _ (by simp)

end FinalComponents

end ScopeMerge
