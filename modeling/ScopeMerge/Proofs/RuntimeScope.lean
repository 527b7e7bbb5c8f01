import ScopeMerge.Proofs.History
import ScopeMerge.Proofs.Nesting
import ScopeMerge.Proofs.ScopeRule

/-!
# The scope of a subcomponent at run time

A final component takes the scope marker of its subcomponent over, and the injector
reads from it how long what it constructs lives. The scope itself is resolved like
that of any declaration. It may therefore come from somewhere else: the argument of
another annotation, if the subcomponent is also contributed in another way. Such a
subcomponent passes every check and has no marker to take over.

This is the only exception. With a marker of its own a subcomponent hands its scope on
to every final component (`carriesScope_of_marked`), and without one to none
(`losesScope_of_not_marked`).
-/

namespace ScopeMerge

/-! ## Where a scope comes from -/

namespace SymbolTable

theorem seesBuiltins_run (ops : List Operation) : (run ops).SeesBuiltins := by
  induction ops using List.reverseRecOn with
  | nil => exact List.prefix_refl _
  | append_singleton ops op ih =>
      obtain ⟨kept, _, _, _, hentries⟩ := op.exists_keeps (run ops)
      rw [run_append]
      unfold SeesBuiltins files at ih ⊢
      rw [hentries, List.map_append]
      exact ih.trans (List.prefix_append _ _)

end SymbolTable

namespace Scope

variable {t : SymbolTable} {d : Declaration} {scope : Scope} {usage : AnnotationUsage}

/-- A declaration carries a scope marker. -/
def Marked (t : SymbolTable) (d : Declaration) : Prop :=
  ∃ usage ∈ d.annotations, Marks t usage

/-- A resolved scope is the one that all markers stand for, or else it is given as an argument and
there are no markers. -/
theorem resolve_ok_source (h : resolve t d = .ok scope) :
    (∃ usage, MarkerOn t (usagesOn d) usage scope.marker ∧ scope.source = .marker usage.type) ∧
        (∀ m, StatedByMarker t (usagesOn d) m → m = scope.marker) ∨
      (∃ usage, ArgumentOn t (usagesOn d) usage scope.marker ∧
        scope.source = .argument usage.type) ∧
        ∀ m, ¬ StatedByMarker t (usagesOn d) m := by
  have hrule := decides_resolve t d
  rw [h] at hrule
  cases hrule with
  | byMarker hadmissible _ hmarker =>
      exact Or.inl ⟨⟨_, hmarker, rfl⟩, fun _ hm => hadmissible.marker_unique hm hmarker.stated⟩
  | byArgument _ _ husage hnone => exact Or.inr ⟨⟨_, husage, rfl⟩, hnone⟩

/-- A marker stands for some scope, if only for itself. -/
theorem markerOn_ofMarker (husage : usage ∈ d.annotations) (h : Marks t usage) :
    MarkerOn t (usagesOn d) usage (ofMarker t usage).marker :=
  ⟨husage, h, ofMarker_marker_eq_iff.mp rfl⟩

theorem marked_iff : Marked t d ↔ ∃ m, StatedByMarker t (usagesOn d) m := by
  constructor
  · rintro ⟨usage, husage, hmarks⟩
    exact ⟨_, usage, markerOn_ofMarker husage hmarks⟩
  · rintro ⟨_, usage, husage, hmarks, _⟩
    exact ⟨usage, husage, hmarks⟩

/-- Where no annotation takes a scope, a single marker decides. -/
theorem resolve_of_contributing_eq_nil (h : contributing t d = [])
    (hsole : (classLevel t d).length ≤ 1) : resolve t d = ofClassLevel t d := by
  have hagree : ¬ (markers (classLevel t d)).length > 1 := by
    match hown : classLevel t d with
    | [] => decide
    | [own] => simp [markers, List.eraseDups_cons]
    | _ :: _ :: _ => simp [hown] at hsole
  unfold resolve
  dsimp only
  rw [if_neg hagree, lacking?, explicit, h]
  rfl

/-- The annotation of a component is no marker, and it takes no scope. -/
theorem component_scopeless (hb : t.SeesBuiltins) :
    isMarker t { type := Vocabulary.component } = false ∧
      takesScope t { type := Vocabulary.component } = false := by
  have hbuiltin : (SymbolTable.initial.find? Vocabulary.component).map
      (fun found => (found.parameters, found.isAnnotatedWith Vocabulary.scopeMarker))
        = some ([], false) := by
    decide
  obtain ⟨found, hfound, hpair⟩ := Option.map_eq_some_iff.mp hbuiltin
  obtain ⟨hparameters, hmarker⟩ := Prod.mk.inj hpair
  have hfind := hb.find?_eq hfound
  constructor
  · unfold isMarker SymbolTable.isScopeMarker
    rw [hfind, Option.any_some, hmarker]
  · unfold takesScope SymbolTable.parameter? SymbolTable.parametersOf
    rw [hfind, Option.map_some, hparameters]
    simp

end Scope

/-! ## What a final component takes over -/

namespace SubcomponentShape

open FinalComponents Scope

variable {t : SymbolTable} {s : Declaration} {shape : SubcomponentShape} {package : String}
  {parent : Name} {usage : AnnotationUsage}

/-- A final component has the scope of the marker it took over, or none at all. -/
theorem resolve_component (hb : t.SeesBuiltins)
    (hmarks : ∀ usage, shape.scopeAnnotation? = some usage → Marks t usage) :
    resolve t (component package parent shape) =
      (shape.scopeAnnotation?.map (ofMarker t)).elim
        (.error (.missingScope (finalName parent shape))) .ok := by
  obtain ⟨hmarker, htakes⟩ := component_scopeless hb
  have hannotations : (component package parent shape).annotations =
      { type := Vocabulary.component } :: shape.scopeAnnotation?.toList :=
    rfl
  have hcopied : ∀ usage ∈ shape.scopeAnnotation?.toList, isMarker t usage = true :=
    fun usage husage => isMarker_iff.mpr (hmarks usage (Option.mem_toList.mp husage))
  have hown : classLevel t (component package parent shape) =
      shape.scopeAnnotation?.toList.map (ofMarker t) := by
    rw [classLevel, hannotations, List.filter_cons_of_neg (by simp [hmarker]),
      List.filter_eq_self.mpr hcopied]
  have hnone : contributing t (component package parent shape) = [] := by
    rw [contributing, hannotations, List.filter_cons_of_neg (by simp [htakes]),
      List.filter_eq_nil_iff]
    intro usage husage
    simp [takesScope, hcopied usage husage]
  have hsole : (classLevel t (component package parent shape)).length ≤ 1 := by
    rw [hown]
    cases shape.scopeAnnotation? <;> simp
  rw [resolve_of_contributing_eq_nil hnone hsole, ofClassLevel, hown]
  cases shape.scopeAnnotation? <;> rfl

/-- The marker that a class-level scope comes from is found on the subcomponent again. -/
theorem scopeAnnotation?_of_mem (husage : usage ∈ shape.subcomponent.annotations)
    (hsource : shape.scope.source = .marker usage.type) :
    ∃ found ∈ shape.subcomponent.annotations,
      found.type = usage.type ∧ shape.scopeAnnotation? = some found := by
  have hsome : (shape.subcomponent.annotation? usage.type).isSome = true :=
    List.find?_isSome.mpr ⟨usage, husage, by simp⟩
  obtain ⟨found, hfound⟩ := Option.isSome_iff_exists.mp hsome
  refine ⟨found, List.mem_of_find?_eq_some hfound, by simpa using List.find?_some hfound, ?_⟩
  unfold scopeAnnotation? markerAnnotation?
  rw [hsource]
  exact hfound

/-- A subcomponent has its scope from a marker, and so has every final component of it. -/
structure CarriesScope (t : SymbolTable) (shape : SubcomponentShape) : Prop where
  classLevel : shape.scope.isClassLevel = true
  annotation : ∃ usage ∈ shape.subcomponent.annotations,
    Marks t usage ∧ shape.scopeAnnotation? = some usage
  component : ∀ package parent, resolve t (component package parent shape) = .ok shape.scope

/-- A subcomponent has its scope from the argument of an annotation, and no final component of it
has a scope at all. -/
structure LosesScope (t : SymbolTable) (shape : SubcomponentShape) : Prop where
  classLevel : shape.scope.isClassLevel = false
  given : ∃ usage, ArgumentOn t (usagesOn shape.subcomponent) usage shape.scope.marker ∧
    shape.scope.source = .argument usage.type
  annotation : shape.scopeAnnotation? = none
  component : ∀ package parent, resolve t (component package parent shape) =
    .error (.missingScope (finalName parent shape))

theorem carriesScope_of_marked (hb : t.SeesBuiltins)
    (hresolve : resolve t shape.subcomponent = .ok shape.scope)
    (hmarked : Marked t shape.subcomponent) : shape.CarriesScope t := by
  obtain ⟨m, hm⟩ := marked_iff.mp hmarked
  rcases resolve_ok_source hresolve with ⟨⟨usage, hmarker, hsource⟩, hsole⟩ | ⟨_, hnone⟩
  · obtain ⟨found, hfound, htype, hcopied⟩ := scopeAnnotation?_of_mem hmarker.1 hsource
    -- whether a usage is a marker depends on its type only, and all markers agree
    have hmarks : Marks t found := by
      unfold Marks
      rw [htype]
      exact hmarker.2.1
    have hsame : ofMarker t found = shape.scope := by
      have hname := hsole _ ⟨found, markerOn_ofMarker hfound hmarks⟩
      rw [← htype] at hsource
      generalize shape.scope = scope at hname hsource
      cases scope
      exact congrArg₂ Scope.mk hname hsource.symm
    refine {
      classLevel := by rw [isClassLevel, hsource]
      annotation := ⟨found, hfound, hmarks, hcopied⟩
      component := fun package parent => ?_ }
    have hall : ∀ usage, shape.scopeAnnotation? = some usage → Marks t usage := by
      intro other hother
      obtain rfl := Option.some.inj (hcopied.symm.trans hother)
      exact hmarks
    rw [resolve_component hb hall, hcopied, ← hsame]
    rfl
  · exact absurd hm (hnone m)

theorem losesScope_of_not_marked (hb : t.SeesBuiltins)
    (hresolve : resolve t shape.subcomponent = .ok shape.scope)
    (hmarked : ¬ Marked t shape.subcomponent) : shape.LosesScope t := by
  rcases resolve_ok_source hresolve with ⟨⟨usage, hmarker, _⟩, _⟩ | ⟨⟨usage, hgives, hsource⟩, _⟩
  · exact absurd ⟨usage, hmarker.1, hmarker.2.1⟩ hmarked
  · have hcopied : shape.scopeAnnotation? = none := by
      rw [scopeAnnotation?, markerAnnotation?, hsource]
      rfl
    refine {
      classLevel := by rw [isClassLevel, hsource]
      given := ⟨usage, hgives, hsource⟩
      annotation := hcopied
      component := fun package parent => ?_ }
    rw [resolve_component hb (by simp [hcopied]), hcopied]
    rfl

/-- **A subcomponent hands its scope on exactly when it carries a marker.** What its merged
interface extends is selected for the same scope, in either case. -/
theorem carriesScope_iff_marked (ops : List SymbolTable.Operation)
    (h : ofSubcomponent (SymbolTable.run ops) s = .ok shape) :
    resolve (SymbolTable.run ops) s = .ok shape.scope ∧
      (shape.CarriesScope (SymbolTable.run ops) ↔ Marked (SymbolTable.run ops) s) ∧
      (shape.LosesScope (SymbolTable.run ops) ↔ ¬ Marked (SymbolTable.run ops) s) ∧
      ∀ package lineage parent lookup rest result, lookup.isSubcomponentLookup = true →
        shapeOf (SymbolTable.run ops) lookup = .ok shape →
        generate (SymbolTable.run ops) package lineage parent (lookup :: rest) = .ok result →
        ∃ factories others, result.declarations =
          component package parent shape :: FinalComponents.factory package parent shape ::
            merged package parent shape
              (Merge.select (SymbolTable.run ops) shape.scope.marker []) factories :: others := by
  have hb := SymbolTable.seesBuiltins_run ops
  obtain ⟨_, _, hresolve, _, _, rfl⟩ := ofSubcomponent_eq_ok_iff.mp h
  have hcarries := carriesScope_of_marked hb hresolve
  have hloses := losesScope_of_not_marked hb hresolve
  refine ⟨hresolve, ⟨fun hc => ?_, hcarries⟩, ⟨fun hl hm => ?_, hloses⟩, ?_⟩
  · by_contra hmarked
    exact nomatch hc.classLevel.symm.trans (hloses hmarked).classLevel
  · exact nomatch (hcarries hm).classLevel.symm.trans hl.classLevel
  · intro package lineage parent lookup rest result hsub hshape hgenerate
    obtain ⟨found, nested, others, hfound, _, _, _, rfl⟩ :=
      (generate_cons_eq_ok_iff hsub).mp hgenerate
    obtain rfl := Except.ok.inj (hshape.symm.trans hfound)
    exact ⟨nested.factories, nested.declarations ++ others.declarations, rfl⟩

end SubcomponentShape

namespace Sample

open Vocabulary SymbolTable

def markedLogin : List Operation :=
  [.addFile { id := ⟨"Login.kt"⟩, declarations := [login, loginFactory] }]

/-- The login without its marker. It is contributed as an interface as well, to the scope that the
marker would stand for. -/
def unmarked : Declaration :=
  { login with
    annotations := [{ type := contributesSubcomponent }, withScope contributesTo loginScope] }

def unmarkedLogin : List Operation :=
  [.addFile { id := ⟨"Login.kt"⟩, declarations := [unmarked, loginFactory] }]

def unmarkedShape : SubcomponentShape :=
  { loginShape with
    subcomponent := unmarked
    scope := { marker := loginScope, source := .argument contributesTo } }

end Sample

namespace SubcomponentShape

open FinalComponents Scope

/-- The login hands its scope on to the final component of any application. -/
theorem marked_login_carries_scope :
    ofSubcomponent (SymbolTable.run Sample.markedLogin) Sample.login = .ok Sample.loginShape ∧
      Marked (SymbolTable.run Sample.markedLogin) Sample.login ∧
      Sample.loginShape.CarriesScope (SymbolTable.run Sample.markedLogin) := by
  have hshape : ofSubcomponent (SymbolTable.run Sample.markedLogin) Sample.login =
      .ok Sample.loginShape := by
    decide
  have hmarked : Marked (SymbolTable.run Sample.markedLogin) Sample.login :=
    ⟨_, List.mem_cons_of_mem _ List.mem_cons_self, isMarker_iff.mp (by decide)⟩
  obtain ⟨_, hcarries, _⟩ := carriesScope_iff_marked Sample.markedLogin hshape
  exact ⟨hshape, hmarked, hcarries.mpr hmarked⟩

/-- A login without a marker passes the checks, and its final component has no scope. -/
theorem unmarked_login_loses_scope :
    ofSubcomponent (SymbolTable.run Sample.unmarkedLogin) Sample.unmarked =
        .ok Sample.unmarkedShape ∧
      ¬ Marked (SymbolTable.run Sample.unmarkedLogin) Sample.unmarked ∧
      Sample.unmarkedShape.scope.isClassLevel = false ∧
      Sample.unmarkedShape.scopeAnnotation? = none ∧
      resolve (SymbolTable.run Sample.unmarkedLogin)
          (component "com.app" Sample.component.name Sample.unmarkedShape) =
        .error (.missingScope ⟨"com.app.AppComponent.LoginFinal"⟩) := by
  have hnone : ∀ usage ∈ Sample.unmarked.annotations,
      isMarker (SymbolTable.run Sample.unmarkedLogin) usage = false := by
    decide
  have hunmarked : ¬ Marked (SymbolTable.run Sample.unmarkedLogin) Sample.unmarked := by
    rintro ⟨usage, husage, hmarks⟩
    exact nomatch (hnone usage husage).symm.trans (isMarker_iff.mpr hmarks)
  exact ⟨by decide, hunmarked, by decide, by decide, by decide⟩

end SubcomponentShape

end ScopeMerge
