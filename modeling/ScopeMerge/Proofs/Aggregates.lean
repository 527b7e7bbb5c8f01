import ScopeMerge.Proofs.Closed

/-!
# The answer to a merge request

A request, the resolver and the finalizer each look at the same declaration for
something else: which name the aggregate gets, what is excluded, which subcomponent a
lookup stands for. `Answers` is what the file that comes out says, without any of the
three.

* The name of the aggregate is made twice, once when the request is read and once when
  the aggregate is written; `Merge.name_aggregate` is that both are the same.
* The subcomponent of a lookup is found twice as well. What is excluded is compared with
  the parent of the last declaration on the origin chain; what is generated is named
  after the subcomponent that was checked. `not_excluded_of_select` is that the second
  one is left out whenever the first one is.
-/

namespace ScopeMerge

open Vocabulary

/-! ## What a request has to extend -/

/-- Some supertypes include an aggregate, by its qualified or by its simple name. -/
def NamesAggregate (supertypes : List Name) (aggregate : Name) : Prop :=
  ∃ s ∈ supertypes, s = aggregate ∨ s.text = aggregate.simpleName

namespace MergeRequest

variable {t : SymbolTable} {d : Declaration} {request : MergeRequest}

theorem extendsAggregate_iff : extendsAggregate d = true ↔
    NamesAggregate d.supertypes d.aggregateName := by
  simp [extendsAggregate, NamesAggregate]

theorem parse_eq_ok_iff : parse t d = .ok request ↔
    ∃ scope, Scope.resolve t d = .ok scope ∧
      (d.isAnnotatedWith component = true → NamesAggregate d.supertypes d.aggregateName) ∧
      request = { declaration := d, scope, exclusions := exclusionsOf t d,
                  aggregate := d.aggregateName } := by
  simp only [parse, Checking.bind_eq_ok, Checking.pure_eq_ok, Checking.refuseUnless_eq_ok,
    Bool.or_eq_true, Bool.not_eq_true', ← Bool.not_eq_true, ← imp_iff_not_or,
    extendsAggregate_iff]
  refine ⟨?_, ?_⟩
  · rintro ⟨scope, hscope, _, hextends, rfl⟩
    exact ⟨scope, hscope, hextends, rfl⟩
  · rintro ⟨scope, hscope, hextends, rfl⟩
    exact ⟨scope, hscope, (), hextends, rfl⟩

/-- A request that does not extend the aggregate it has to is told the name. -/
theorem parse_of_not_extends {scope : Scope} (hscope : Scope.resolve t d = .ok scope)
    (hcomponent : d.isAnnotatedWith component = true)
    (hnot : ¬ NamesAggregate d.supertypes d.aggregateName) :
    parse t d = .error (.supertypeNotDeclared d.name d.aggregateName) := by
  have hextends : extendsAggregate d = false := by
    rw [← Bool.not_eq_true, extendsAggregate_iff]
    exact hnot
  unfold parse
  rw [hscope, hcomponent, hextends]
  rfl

end MergeRequest

/-! ## What is left out -/

/-- A subcomponent is not selected if it is excluded, or if its factory is. -/
theorem Merge.not_excluded_of_select {t : SymbolTable} {scope : Name} {exclusions : List Name}
    {lookup : Declaration} {shape : SubcomponentShape} (h : lookup ∈ select t scope exclusions)
    (hsub : lookup.isSubcomponentLookup = true)
    (hshape : FinalComponents.shapeOf t lookup = .ok shape) :
    shape.subcomponent.name ∉ exclusions ∧ shape.factory.name ∉ exclusions := by
  obtain ⟨factory, hlast, _, hfactory⟩ := FinalComponents.shapeOf_eq_ok_iff.mp hshape
  obtain ⟨henclosing, _, hname⟩ := SubcomponentShape.ofFactory_eq_ok_iff.mp hfactory
  obtain ⟨parent, hparent, hfind, _⟩ := SubcomponentShape.enclosing_eq_ok_iff.mp henclosing
  have hselects := (List.mem_filter.mp h).2
  simp only [selects, inExcludedSubcomponent, hlast, hsub, Option.bind_some, hparent,
    Option.any_some, Bool.true_and, Bool.and_eq_true, Bool.not_eq_true', List.any_eq_false,
    List.contains_eq_mem, decide_eq_true_eq, decide_eq_false_iff_not] at hselects
  obtain ⟨⟨_, hchain⟩, hsubcomponent⟩ := hselects
  refine ⟨?_, ?_⟩
  · rw [(SymbolTable.find?_eq_some hfind).2]
    exact hsubcomponent
  · rw [hname]
    exact hchain factory (List.mem_of_getLast? hlast)

namespace FinalComponents

variable {t : SymbolTable} {package : String} {parent : Name} {contributions : List Declaration}
  {nesting : Nesting}

theorem Unfolds.map_lookup_roots (h : Unfolds t contributions nesting) :
    nesting.roots.map (·.lookup) = contributions.filter (·.isSubcomponentLookup) := by
  induction h with
  | nil => rfl
  | other hsub _ ih => rw [ih, List.filter_cons_of_neg (by simp [hsub])]
  | subcomponent hsub _ _ _ _ ihbeside =>
      rw [Nesting.roots, List.map_cons, ihbeside, List.filter_cons_of_pos hsub]

theorem eq_nil_of_nameAlong_eq {steps : List Descent} (h : nameAlong parent steps = parent) :
    steps = [] := by
  cases steps with
  | nil => rfl
  | cons step rest =>
      have hlength := congrArg (·.text.length) h
      have hgrows := length_lt_child parent step.label
      simp only [nameAlong, List.map_cons, String.join_cons, Name.child, String.length_append]
        at hlength hgrows
      omega

/-- What stands directly under the parent is a subcomponent among the contributions. -/
theorem Unfolds.exists_root (h : Unfolds t contributions nesting) {c : Declaration}
    (hc : c ∈ (nesting.final t package parent).declarations) (hkind : c.kind = .classType)
    (hparent : c.parent = some parent) :
    ∃ step ∈ descents t contributions, c.origin = some step.shape.subcomponent.name := by
  obtain ⟨path, hpath, rfl | rfl | rfl⟩ := Nesting.mem_final_iff.mp hc
  · have habove : path.above = [] := eq_nil_of_nameAlong_eq (Option.some.inj hparent)
    have hdescends : Descends t contributions (path.above ++ [path.last]) :=
      h.mem_paths_iff.mp hpath
    rw [habove] at hdescends
    exact ⟨path.last, hdescends.1, rfl⟩
  · exact nomatch hkind
  · exact nomatch hkind

/-- A name is the one of the factory that is generated for a lookup under a parent. -/
structure ImplementedBy (t : SymbolTable) (parent : Name) (generated : List Declaration)
    (lookup : Declaration) (n : Name) (shape : SubcomponentShape)
    (component factory : Declaration) : Prop where
  stands : shapeOf t lookup = .ok shape
  component_mem : component ∈ generated
  component_name : component.name =
    parent.child (shape.subcomponent.joinedSimpleName ++ finalSuffix)
  component_kind : component.kind = .classType
  component_parent : component.parent = some parent
  component_origin : component.origin = some shape.subcomponent.name
  factory_mem : factory ∈ generated
  factory_name : factory.name = n
  factory_kind : factory.kind = .interface
  factory_parent : factory.parent = some component.name
  implements : factory.supertypes = [shape.factory.name]

theorem Unfolds.implementedBy (h : Unfolds t contributions nesting) {step : Descent}
    (hstep : step ∈ nesting.roots) :
    ImplementedBy t parent (nesting.final t package parent).declarations step.lookup
      (factoryName (finalName parent step.shape)) step.shape
      (component package parent step.shape) (factory package parent step.shape) := by
  have hpath := h.path_of_root hstep
  have hshape : shapeOf t step.lookup = .ok step.shape := by
    rw [h.roots_eq] at hstep
    exact (mem_descents_iff.mp hstep).2.2
  refine ⟨hshape, Nesting.mem_final_iff.mpr ⟨_, hpath, Or.inl ?_⟩, rfl, rfl, rfl, rfl,
    Nesting.mem_final_iff.mpr ⟨_, hpath, Or.inr (Or.inl ?_)⟩, rfl, rfl, rfl, rfl⟩
  · rw [Path.component, nameAlong_nil]
  · rw [Path.factory, nameAlong_nil]

end FinalComponents

/-! ## The answer -/

namespace Merge

open FinalComponents

variable {t : SymbolTable} {d : Declaration} {file : SourceFile}

/-- What a file says that answers a request. -/
structure Answers (t : SymbolTable) (d : Declaration) (file : SourceFile) (aggregate : Declaration)
    (finals : List Declaration) (scope : Scope) (contributions : List Declaration) : Prop where
  declarations : file.declarations = aggregate :: finals
  id : file.id = ⟨"generated/" ++ d.aggregateName.text⟩
  name : aggregate.name = d.aggregateName
  kind : aggregate.kind = .interface
  parent : aggregate.parent = none
  package : aggregate.package = d.package
  origin : aggregate.origin = some d.name
  resolved : Scope.resolve t d = .ok scope
  selected : contributions = select t scope.marker (MergeRequest.exclusionsOf t d)
  ascending : contributions.Pairwise fun a b => a.name.text ≤ b.name.text
  /-- The aggregate extends what is selected, and then one factory for each subcomponent. -/
  supertypes : ∃ factories, aggregate.supertypes = contributions.map (·.name) ++ factories ∧
    List.Forall₂ (fun lookup n => ∃ shape component factory,
        ImplementedBy t d.name finals lookup n shape component factory)
      (contributions.filter (·.isSubcomponentLookup)) factories
  /-- No component directly under the request is for an excluded subcomponent, or for one with an
  excluded factory. -/
  outside : ∀ c ∈ finals, c.kind = .classType → c.parent = some d.name →
    ∃ s, c.origin = some s ∧ s ∉ MergeRequest.exclusionsOf t d ∧
      ∀ factory ∈ t.nestedIn s, factory.isAnnotatedWith subcomponentFactory = true →
        factory.name ∉ MergeRequest.exclusionsOf t d
  /-- A component for the injector extends the aggregate, -/
  extended : d.isAnnotatedWith component = true → NamesAggregate d.supertypes aggregate.name
  /-- and with any supertypes that leave it out it would be told its name. -/
  demanded : d.isAnnotatedWith component = true → ∀ supertypes,
    ¬ NamesAggregate supertypes aggregate.name →
      MergeRequest.parse t { d with supertypes } =
        .error (.supertypeNotDeclared d.name aggregate.name)

theorem pairwise_le_select (t : SymbolTable) (scope : Name) (exclusions : List Name) :
    (select t scope exclusions).Pairwise fun a b => a.name.text ≤ b.name.text := by
  have hordered : (select t scope exclusions).Pairwise fun a b => a.name.le b.name :=
    ((SymbolTable.pairwise_le_mergeSort _).filter _).filter _
  exact hordered.imp of_decide_eq_true

theorem not_excluded_of_descends {scope : Name} {exclusions : List Name} {step : Descent}
    (h : step ∈ descents t (select t scope exclusions)) :
    step.shape.subcomponent.name ∉ exclusions ∧
      ∀ factory ∈ t.nestedIn step.shape.subcomponent.name,
        factory.isAnnotatedWith subcomponentFactory = true → factory.name ∉ exclusions := by
  obtain ⟨hselect, hsub, hshape⟩ := mem_descents_iff.mp h
  obtain ⟨hsubcomponent, hfactory⟩ := not_excluded_of_select hselect hsub hshape
  refine ⟨hsubcomponent, fun factory hmem hannotated => ?_⟩
  -- the subcomponent has one factory only
  have hsole := SubcomponentShape.mem_factories_of_ofSubcomponent (ofSubcomponent_of_shapeOf hshape)
  have hin : factory ∈ SubcomponentShape.factories t step.shape.subcomponent :=
    List.mem_filter.mpr ⟨hmem, hannotated⟩
  rw [hsole] at hin
  rw [List.mem_singleton.mp hin]
  exact hfactory

/-- **A request is answered by its aggregate and by the components of what it selects.** The
aggregate has the name that the request has to extend; it extends what its scope selects without
what it excludes, in ascending order, and after that one factory for each subcomponent among it;
and no component directly under the request is for something excluded. -/
theorem finalize_answers_request (h : finalize t d = .ok file) :
    ∃ aggregate finals scope contributions,
      Answers t d file aggregate finals scope contributions := by
  obtain ⟨request, finals, hrequest, hfinals, rfl⟩ := finalize_eq_ok_iff.mp h
  obtain ⟨scope, hscope, hextends, rfl⟩ := MergeRequest.parse_eq_ok_iff.mp hrequest
  obtain ⟨nesting, hunfolds, _, rfl⟩ := generate_eq_ok_iff.mp hfinals
  have hname := name_aggregate hrequest
    (select t scope.marker (MergeRequest.exclusionsOf t d))
    (nesting.final t d.package d.name).factories
  refine ⟨_, _, scope, _, rfl, ?_, hname, rfl, rfl, rfl, rfl, hscope, rfl,
    pairwise_le_select _ _ _, ⟨_, rfl, ?_⟩, ?_, ?_, ?_⟩
  · exact congrArg FileId.generated hname
  · rw [← hunfolds.map_lookup_roots]
    refine List.forall₂_map_left_iff.mpr (List.forall₂_map_right_iff.mpr
      (List.forall₂_same.mpr fun step hstep => ?_))
    exact ⟨_, _, _, hunfolds.implementedBy hstep⟩
  · intro c hc hkind hparent
    obtain ⟨step, hstep, horigin⟩ := hunfolds.exists_root hc hkind hparent
    exact ⟨_, horigin, not_excluded_of_descends hstep⟩
  · rw [hname]
    exact hextends
  · intro hcomponent supertypes hnot
    rw [hname] at hnot ⊢
    exact MergeRequest.parse_of_not_extends (d := { d with supertypes }) hscope hcomponent hnot

end Merge

/-! ## A sample

Two subcomponents are contributed to an application, which leaves one of them out. -/

namespace Sample

open FinalComponents

def detailOfApp : Declaration := factoryOf detail appScope

def detailOfAppLookup : Declaration := lookupOf "ComAppDetailFactory" detailOfApp appScope

/-- A component for the injector that merges its scope, but for the detail. -/
def sparing : Declaration :=
  { Declaration.topLevel .interface "com.app" "AppComponent" with
    supertypes := [⟨"AppComponentMerged"⟩]
    annotations :=
      [{ type := Vocabulary.component },
        { type := mergeComponent
          arguments :=
            [{ name := some scopeParameter, value := .type appScope },
              { name := some excludeParameter, value := .types [detail.name] }] }] }

def leavingOut : List Session.Input :=
  [.sources { files :=
      [{ id := ⟨"Detail.kt"⟩, declarations := [detail, detailOfApp] },
        { id := ⟨"Login.kt"⟩, declarations := [login, loginFactory] },
        { id := ⟨"AppComponent.kt"⟩, declarations := [sparing] }] }]

def leavingOutTable : SymbolTable :=
  (Session.loadedTable leavingOut).append
    [.generated detailOfAppLookup, .generated loginLookup] true

theorem offers_leavingOut :
    Offers leavingOutTable "ComAppDetailFactory" detail appScope detailScope ∧
      Offers leavingOutTable "ComAppLoginFactory" login appScope loginScope := by
  decide

/-- The application selects the login only, and the login selects nothing. -/
theorem select_leavingOut : Merge.select leavingOutTable appScope [detail.name] = [loginLookup] ∧
    Merge.select leavingOutTable loginScope [] = [] := by
  have hb : leavingOutTable.SeesBuiltins := (Session.seesBuiltins_loadedTable leavingOut).append _ _
  have hlookups : Merge.lookups leavingOutTable = [detailOfAppLookup, loginLookup] :=
    Merge.lookups_append_loadedTable (by decide)
  have hdetail : ∀ marker exclusions,
      Merge.selects leavingOutTable marker exclusions detailOfAppLookup = _ :=
    offers_leavingOut.1.selects_excluding hb
  have hlogin : ∀ marker exclusions,
      Merge.selects leavingOutTable marker exclusions loginLookup = _ :=
    offers_leavingOut.2.selects_excluding hb
  unfold Merge.select
  rw [hlookups, List.filter_cons, List.filter_cons, List.filter_cons, List.filter_cons, hdetail,
    hdetail, hlogin, hlogin]
  decide

theorem unfolds_leavingOut :
    Unfolds leavingOutTable [loginLookup] (.node ⟨loginLookup, loginShape⟩ .empty .empty) := by
  refine .subcomponent (isSubcomponentLookup_lookupOf _ _ _) offers_leavingOut.2.shapeOf_eq ?_ .nil
  show Unfolds leavingOutTable (Merge.select leavingOutTable loginScope []) _
  rw [select_leavingOut.2]
  exact .nil

end Sample

open FinalComponents in
/-- The aggregate of the application extends the lookup of the login and the login's factory, and
nothing of the detail. -/
theorem Merge.sparing_is_answered :
    ∃ file aggregate finals scope contributions,
      finalize Sample.leavingOutTable Sample.sparing = .ok file ∧
      Answers Sample.leavingOutTable Sample.sparing file aggregate finals scope contributions ∧
      aggregate.supertypes =
        [⟨"scopeweave.inject.lookup.ComAppLoginFactory"⟩,
          ⟨"com.app.AppComponent.LoginFinal.Factory"⟩] := by
  have hexclusions :
      MergeRequest.exclusionsOf Sample.leavingOutTable Sample.sparing = [Sample.detail.name] :=
    MergeRequest.exclusionsOf_eq_of_list (by decide) (List.mergeSort_singleton _)
  have hrequest := MergeRequest.parse_eq_ok_iff (t := Sample.leavingOutTable) (d := Sample.sparing)
    |>.mpr ⟨{ marker := Sample.appScope, source := .argument mergeComponent }, by decide,
      fun _ => ⟨_, List.mem_cons_self, by decide⟩, rfl⟩
  have hfinals : generate Sample.leavingOutTable "com.app" [] Sample.sparing.name
      [Sample.loginLookup] = .ok _ :=
    generate_of_unfolds Sample.unfolds_leavingOut ⟨List.not_mem_nil, trivial, trivial⟩
  have hselect := Sample.select_leavingOut.1
  rw [← hexclusions] at hselect
  rw [← hselect] at hfinals
  have h := finalize_eq_ok_iff.mpr ⟨_, _, hrequest, hfinals, rfl⟩
  obtain ⟨aggregate, finals, scope, contributions, hanswers⟩ := finalize_answers_request h
  refine ⟨_, aggregate, finals, scope, contributions, h, hanswers, ?_⟩
  obtain ⟨rfl, rfl⟩ := List.cons.inj hanswers.declarations
  rw [Merge.aggregate]
  dsimp only
  rw [hselect]
  decide

end ScopeMerge
