import ScopeMerge.Contribution.Legacy
import ScopeMerge.Contribution.Subcomponent
import ScopeMerge.Merge.Request
import Mathlib.Data.List.Basic
import Mathlib.Data.List.Find

/-!
# What a declaration's scope depends on

Reading a declaration looks at the table for one thing only: what the classes of
the annotations on the declaration say. `SameClass` says that two tables answer
that alike for one annotation type. Everything read off the annotations of a
declaration is then the same in both, its scope first of all.
-/

namespace ScopeMerge

open Vocabulary

/-- Two tables say the same about an annotation class. -/
structure SameClass (t t' : SymbolTable) (annotationType : Name) : Prop where
  /-- It is a scope marker in both or in neither. -/
  marker : t.isScopeMarker annotationType = t'.isScopeMarker annotationType
  /-- It has the same parameters. -/
  parameters : t.parametersOf annotationType = t'.parametersOf annotationType

theorem SameClass.symm {t t' : SymbolTable} {n : Name} (h : SameClass t t' n) :
    SameClass t' t n :=
  ⟨h.marker.symm, h.parameters.symm⟩

/-- Two tables say the same about every annotation on a declaration. -/
def SameReading (t t' : SymbolTable) (d : Declaration) : Prop :=
  ∀ usage ∈ d.annotations, SameClass t t' usage.type

variable {t t' : SymbolTable} {d : Declaration} {usage : AnnotationUsage}

theorem argument?_congr (h : SameClass t t' usage.type) (parameter : String) :
    t.argument? usage parameter = t'.argument? usage parameter := by
  unfold SymbolTable.argument?
  rw [h.parameters]

/-! ## Scopes -/

namespace Scope

theorem ofArgument?_congr (h : SameClass t t' usage.type) :
    ofArgument? t usage = ofArgument? t' usage := by
  unfold ofArgument?
  rw [argument?_congr h]

theorem takesScope_congr (h : SameClass t t' usage.type) :
    takesScope t usage = takesScope t' usage := by
  unfold takesScope isMarker SymbolTable.parameter?
  rw [h.marker, h.parameters]

theorem mayOmitScope_congr (h : SameClass t t' usage.type) :
    mayOmitScope t usage = mayOmitScope t' usage := by
  unfold mayOmitScope SymbolTable.parameter?
  rw [h.parameters]

theorem classLevel_congr (h : SameReading t t' d) : classLevel t d = classLevel t' d := by
  unfold classLevel isMarker
  rw [List.filter_congr fun usage hu => (h usage hu).marker]
  refine List.map_congr_left fun usage hu => ?_
  unfold ofMarker
  rw [ofArgument?_congr (h usage (List.mem_of_mem_filter hu))]

theorem contributing_congr (h : SameReading t t' d) :
    contributing t d = contributing t' d :=
  List.filter_congr fun usage hu => takesScope_congr (h usage hu)

theorem mem_of_mem_contributing (h : usage ∈ contributing t d) : usage ∈ d.annotations :=
  List.mem_of_mem_filter h

theorem explicit_congr (h : SameReading t t' d) : explicit t d = explicit t' d := by
  unfold explicit
  rw [← contributing_congr h]
  refine List.filterMap_congr fun usage hu => ?_
  rw [ofArgument?_congr (h usage (mem_of_mem_contributing hu))]

theorem omitting_congr (h : SameReading t t' d) : omitting t d = omitting t' d := by
  unfold omitting
  rw [← contributing_congr h]
  congr 2
  refine List.filter_congr fun usage hu => ?_
  rw [ofArgument?_congr (h usage (mem_of_mem_contributing hu))]

theorem lacking?_congr (h : SameReading t t' d) : lacking? t d = lacking? t' d := by
  unfold lacking?
  rw [← contributing_congr h]
  congr 1
  refine List.find?_congr fun usage hu => ?_
  have hsame := h usage (mem_of_mem_contributing hu)
  rw [ofArgument?_congr hsame, mayOmitScope_congr hsame]

/-- Of some names more than one is left without repetitions exactly when two of them differ. -/
theorem length_eraseDups_gt_one_iff {names : List Name} :
    names.eraseDups.length > 1 ↔ ∃ a ∈ names, ∃ b ∈ names, a ≠ b := by
  cases names with
  | nil => simp
  | cons first rest =>
      rw [List.eraseDups_cons, List.length_cons, gt_iff_lt, Nat.lt_add_left_iff_pos,
        List.length_pos_iff_exists_mem]
      refine ⟨?_, ?_⟩
      · rintro ⟨other, hother⟩
        obtain ⟨hmem, hne⟩ := List.mem_filter.mp (List.mem_eraseDups.mp hother)
        exact ⟨other, List.mem_cons_of_mem _ hmem, first, List.mem_cons_self, by simpa using hne⟩
      · rintro ⟨a, ha, b, hb, hne⟩
        -- one of the two is not the first name
        obtain ⟨other, hother, hdiffers⟩ : ∃ other ∈ first :: rest, other ≠ first := by
          by_cases hfirst : a = first
          · exact ⟨b, hb, fun hb => hne (hfirst.trans hb.symm)⟩
          · exact ⟨a, ha, hfirst⟩
        refine ⟨other, List.mem_eraseDups.mpr (List.mem_filter.mpr ⟨?_, by simpa using hdiffers⟩)⟩
        exact (List.mem_cons.mp hother).resolve_left hdiffers

/-- **The scope of a declaration depends on its annotation classes only.** -/
theorem resolve_congr (h : SameReading t t' d) : resolve t d = resolve t' d := by
  unfold resolve ofClassLevel ofExplicit
  rw [classLevel_congr h, lacking?_congr h, explicit_congr h, omitting_congr h]

end Scope

/-! ## Contributions -/

namespace Contribution

theorem interfaceLookups_congr (h : SameReading t t' d) (annotationType : Name) :
    interfaceLookups t annotationType d = interfaceLookups t' annotationType d := by
  unfold interfaceLookups interfaceLookup
  rw [Scope.resolve_congr h]

theorem ofUsage_congr (h : SameClass t t' usage.type) :
    Binding.ofUsage t d usage = Binding.ofUsage t' d usage := by
  unfold Binding.ofUsage Binding.namedType?
  rw [argument?_congr h, argument?_congr h]

theorem collect_congr {usages : List AnnotationUsage}
    (h : ∀ usage ∈ usages, SameClass t t' usage.type) (earlier : List Binding) :
    Binding.collect t d earlier usages = Binding.collect t' d earlier usages := by
  induction usages generalizing earlier with
  | nil => rfl
  | cons usage rest ih =>
      rw [Binding.collect, Binding.collect, ofUsage_congr (h usage List.mem_cons_self)]
      refine bind_congr fun binding => bind_congr fun _ => ?_
      rw [ih fun u hu => h u (List.mem_cons_of_mem _ hu)]

theorem bindingLookups_congr (h : SameReading t t' d) (annotationType : Name) :
    bindingLookups t annotationType d = bindingLookups t' annotationType d := by
  have husages : ∀ usage ∈ d.annotationsOf annotationType, SameClass t t' usage.type :=
    fun usage hu => h usage (List.mem_of_mem_filter hu)
  unfold bindingLookups
  rw [Scope.resolve_congr h, collect_congr husages]

end Contribution

namespace LegacyAnnotation

theorem lookups_congr (h : SameReading t t' d) (legacy : LegacyAnnotation) :
    legacy.lookups t d = legacy.lookups t' d := by
  cases legacy with
  | contributesTo => exact Contribution.interfaceLookups_congr h _
  | contributesBinding => exact Contribution.bindingLookups_congr h _

theorem complaints_congr (h : SameReading t t' d) (legacy : LegacyAnnotation) :
    legacy.complaints t d = legacy.complaints t' d := by
  unfold complaints unsupportedParameters
  congr 2
  refine List.flatMap_congr fun usage hu => ?_
  have hsame := h usage (List.mem_of_mem_filter hu)
  refine List.filter_congr fun parameter _ => ?_
  rw [argument?_congr hsame]

end LegacyAnnotation

/-! ## Subcomponents -/

namespace SubcomponentShape

variable {subcomponent factory : Declaration} {shape : SubcomponentShape}

theorem soleFactory_eq_ok_iff :
    soleFactory t subcomponent = .ok factory ↔ factories t subcomponent = [factory] := by
  unfold soleFactory
  split <;> simp_all

/-- Two tables say the same about a subcomponent: about its annotations, and about the factories
nested in it. -/
structure SameShape (t t' : SymbolTable) (subcomponent : Declaration) : Prop where
  reading : SameReading t t' subcomponent
  factories : (factories t subcomponent).Perm (factories t' subcomponent)

theorem SameShape.symm (h : SameShape t t' subcomponent) : SameShape t' t subcomponent :=
  ⟨fun usage hu => (h.reading usage hu).symm, h.factories.symm⟩

theorem soleFactory_transport (h : SameShape t t' subcomponent)
    (hs : soleFactory t subcomponent = .ok factory) :
    soleFactory t' subcomponent = .ok factory := by
  rw [soleFactory_eq_ok_iff] at hs ⊢
  have hp := h.factories
  rw [hs] at hp
  exact (List.singleton_perm.mp hp).symm

theorem ofSubcomponent_eq_ok_iff :
    ofSubcomponent t subcomponent = .ok shape ↔
      Contribution.requirePublic subcomponent = .ok () ∧ isOpenType subcomponent = true ∧
        Scope.resolve t subcomponent = .ok shape.scope ∧
        soleFactory t subcomponent = .ok shape.factory ∧
        factoryFunction subcomponent shape.factory = .ok shape.function ∧
        shape.subcomponent = subcomponent := by
  simp only [ofSubcomponent, Checking.bind_eq_ok, Checking.pure_eq_ok]
  refine ⟨?_, ?_⟩
  · intro h
    obtain ⟨_, hpublic, _, hopen, scope, hscope, factory, hfactory, function, hfunction, rfl⟩ := h
    exact ⟨hpublic, Checking.refuseUnless_eq_ok.mp hopen, hscope, hfactory, hfunction, rfl⟩
  · intro h
    obtain ⟨hpublic, hopen, hscope, hfactory, hfunction, rfl⟩ := h
    exact ⟨(), hpublic, (), Checking.refuseUnless_eq_ok.mpr hopen, shape.scope, hscope,
      shape.factory, hfactory, shape.function, hfunction, rfl⟩

theorem ofSubcomponent_transport (h : SameShape t t' subcomponent)
    (hs : ofSubcomponent t subcomponent = .ok shape) :
    ofSubcomponent t' subcomponent = .ok shape := by
  obtain ⟨hpublic, hopen, hscope, hfactory, hfunction, heq⟩ := ofSubcomponent_eq_ok_iff.mp hs
  refine ofSubcomponent_eq_ok_iff.mpr ⟨hpublic, hopen, ?_, ?_, hfunction, heq⟩
  · rw [← Scope.resolve_congr h.reading]; exact hscope
  · exact soleFactory_transport h hfactory

/-- The parts of a sound subcomponent: its factory is nested in it, as the table finds it. -/
theorem mem_factories_of_ofSubcomponent (h : ofSubcomponent t subcomponent = .ok shape) :
    factories t subcomponent = [shape.factory] :=
  soleFactory_eq_ok_iff.mp (ofSubcomponent_eq_ok_iff.mp h).2.2.2.1

theorem factory_mem_of_ofSubcomponent (h : ofSubcomponent t subcomponent = .ok shape) :
    shape.factory ∈ factories t subcomponent := by
  rw [mem_factories_of_ofSubcomponent h]
  exact List.mem_cons_self

theorem mem_factories_iff : factory ∈ factories t subcomponent ↔
    (∃ e ∈ t.declarations, e.parent = some subcomponent.name ∧ t.find? e.name = some factory) ∧
      factory.isAnnotatedWith subcomponentFactory = true := by
  unfold factories SymbolTable.nestedIn
  simp only [List.mem_filter, List.mem_filterMap, decide_eq_true_eq, and_assoc]

theorem enclosing_eq_ok_iff : enclosing t factory = .ok subcomponent ↔
    ∃ parent, factory.parent = some parent ∧ t.find? parent = some subcomponent ∧
      subcomponent.isAnnotatedWith contributesSubcomponent = true := by
  unfold enclosing
  split
  · next found hfound =>
    obtain ⟨hbind, hannotated⟩ := Option.filter_eq_some_iff.mp hfound
    obtain ⟨parent, hparent, hfind⟩ := Option.bind_eq_some_iff.mp hbind
    refine ⟨?_, ?_⟩
    · intro h
      obtain rfl := Except.ok.inj h
      exact ⟨parent, hparent, hfind, hannotated⟩
    · rintro ⟨other, hother, hfindOther, _⟩
      obtain rfl := Option.some.inj (hparent.symm.trans hother)
      obtain rfl := Option.some.inj (hfind.symm.trans hfindOther)
      rfl
  · next hnone =>
    refine ⟨nofun, ?_⟩
    rintro ⟨parent, hparent, hfind, hannotated⟩
    simp [hparent, hfind, hannotated] at hnone

theorem ofFactory_eq_ok_iff : ofFactory t factory = .ok shape ↔
    enclosing t factory = .ok shape.subcomponent ∧
      ofSubcomponent t shape.subcomponent = .ok shape ∧ shape.factory.name = factory.name := by
  simp only [ofFactory, Checking.bind_eq_ok, Checking.pure_eq_ok]
  refine ⟨?_, ?_⟩
  · rintro ⟨subcomponent, henclosing, found, hfound, _, hname, rfl⟩
    obtain ⟨_, _, _, _, _, rfl⟩ := ofSubcomponent_eq_ok_iff.mp hfound
    exact ⟨henclosing, hfound, of_decide_eq_true (Checking.refuseUnless_eq_ok.mp hname)⟩
  · rintro ⟨henclosing, hshape, hname⟩
    exact ⟨shape.subcomponent, henclosing, shape, hshape, (),
      Checking.refuseUnless_eq_ok.mpr (decide_eq_true hname), rfl⟩

end SubcomponentShape

theorem Contribution.subcomponentLookup_eq_ok_iff {subcomponent lookup : Declaration} :
    subcomponentLookup t subcomponent = .ok lookup ↔
      ∃ shape scope, SubcomponentShape.ofSubcomponent t subcomponent = .ok shape ∧
        Scope.resolve t shape.factory = .ok scope ∧
        lookup =
          { emptyLookup shape.factory.name.flatten shape.factory scope with
            supertypes := [shape.factory.name]
            annotations := [scopeRecord scope, { type := subcomponentFactoryMarker }] } := by
  simp only [subcomponentLookup, Checking.bind_eq_ok, Checking.pure_eq_ok]
  refine ⟨?_, ?_⟩
  · intro h
    obtain ⟨shape, hshape, scope, hscope, rfl⟩ := h
    exact ⟨shape, scope, hshape, hscope, rfl⟩
  · intro h
    obtain ⟨shape, scope, hshape, hscope, rfl⟩ := h
    exact ⟨shape, hshape, scope, hscope, rfl⟩

/-! ## Merge requests -/

namespace MergeRequest

theorem exclusionsOf_congr (h : SameReading t t' d) : exclusionsOf t d = exclusionsOf t' d := by
  unfold exclusionsOf exclusionList?
  cases husage : d.annotation? mergeComponent with
  | none => rfl
  | some usage =>
      have hmem : usage ∈ d.annotations := List.mem_of_find?_eq_some husage
      rw [Option.bind_some, Option.bind_some, argument?_congr (h usage hmem)]

/-- What a request leaves out is the list it gives, if that list is in order. -/
theorem exclusionsOf_eq_of_list {names : List Name}
    (hlist : ((((d.annotation? mergeComponent).bind (exclusionList? t)).bind
      (·.asTypes?)).getD []).eraseDups = names)
    (hsorted : names.mergeSort Name.le = names) : exclusionsOf t d = names := by
  unfold exclusionsOf Name.sortedSet
  rw [hlist, hsorted]

theorem parse_congr (h : SameReading t t' d) : parse t d = parse t' d := by
  unfold parse
  rw [Scope.resolve_congr h, exclusionsOf_congr h]

/-- What a request says that is understood. -/
theorem parse_ok {request : MergeRequest} (h : parse t d = .ok request) :
    Scope.resolve t d = .ok request.scope ∧ request.exclusions = exclusionsOf t d := by
  simp only [parse, Checking.bind_eq_ok, Checking.pure_eq_ok] at h
  obtain ⟨scope, hscope, _, _, rfl⟩ := h
  exact ⟨hscope, rfl⟩

end MergeRequest

end ScopeMerge
