import ScopeMerge.Proofs.Agreement
import ScopeMerge.Proofs.Loading
import Mathlib.Data.List.Forall2

/-!
# What a compilation generates

A compilation writes four kinds of declaration: lookups, markers, aggregates and
the parts of final components. None of them carries an annotation that a
processor looks for, none is an annotation class, and only the lookups are
lookups. `Inert` is the first half of this, and every kind is shown to have it.

The one annotation that is not fixed beforehand is the scope marker that a final
component takes over from its subcomponent. It is a scope marker in the table it
was read from, so it is none of the built-in annotations, whatever an input or an
option may call itself.
-/

namespace ScopeMerge

open Vocabulary Checking

/-- A declaration that every later round passes over. -/
structure Declaration.Inert (d : Declaration) : Prop where
  /-- As an annotation class it would have no parameters. -/
  parameters : d.parameters = []
  /-- It carries no annotation that means something on an input. -/
  annotations : ∀ n ∈ inputOnly, d.isAnnotatedWith n = false

/-- A file of declarations that every later round passes over. -/
def SourceFile.Inert (file : SourceFile) : Prop :=
  ∀ d ∈ file.declarations, d.Inert

namespace Declaration

variable {d : Declaration}

theorem isAnnotatedWith_eq_false_iff {n : Name} :
    d.isAnnotatedWith n = false ↔ ∀ usage ∈ d.annotations, usage.type ≠ n := by
  unfold isAnnotatedWith
  simp

theorem inert_of_annotations (hp : d.parameters = [])
    (ha : ∀ usage ∈ d.annotations, usage.type ∉ inputOnly) : d.Inert where
  parameters := hp
  annotations := by
    intro n hn
    rw [isAnnotatedWith_eq_false_iff]
    intro usage hu hue
    exact ha usage hu (hue ▸ hn)

theorem isLookup_eq_false (ha : ∀ usage ∈ d.annotations, usage.type ≠ contributionScope) :
    d.isLookup = false := by
  unfold isLookup
  rw [isAnnotatedWith_eq_false_iff.mpr ha, Bool.and_false]

end Declaration

/-! ## Lookups -/

/-- What all lookups have in common, whatever they contribute. -/
structure Declaration.StandsFor (lookup contributor : Declaration) (scope : Scope) : Prop where
  package : lookup.package = lookupNamespace
  parent : lookup.parent = none
  parameters : lookup.parameters = []
  origin : lookup.origin = some contributor.name
  annotations : lookup.annotations = [Contribution.scopeRecord scope] ∨
    lookup.annotations = [Contribution.scopeRecord scope, { type := subcomponentFactoryMarker }]

namespace Declaration.StandsFor

variable {lookup contributor : Declaration} {scope : Scope}

theorem inert (h : lookup.StandsFor contributor scope) : lookup.Inert := by
  refine inert_of_annotations h.parameters fun usage hu => ?_
  have htypes : usage.type = contributionScope ∨ usage.type = subcomponentFactoryMarker := by
    rcases h.annotations with ha | ha <;> rw [ha] at hu
    · rw [List.mem_singleton.mp hu]
      exact Or.inl rfl
    · rcases List.mem_cons.mp hu with rfl | hu
      · exact Or.inl rfl
      · rw [List.mem_singleton.mp hu]
        exact Or.inr rfl
  rcases htypes with ht | ht <;> rw [ht] <;> decide

theorem isLookup (h : lookup.StandsFor contributor scope) : lookup.isLookup = true := by
  unfold Declaration.isLookup isAnnotatedWith
  rw [h.package]
  rcases h.annotations with ha | ha <;> rw [ha] <;> simp [Contribution.scopeRecord]

theorem annotation?_contributionScope (h : lookup.StandsFor contributor scope) :
    lookup.annotation? contributionScope = some (Contribution.scopeRecord scope) := by
  unfold annotation?
  rcases h.annotations with ha | ha <;> rw [ha] <;> simp [Contribution.scopeRecord]

end Declaration.StandsFor

namespace Contribution

variable {t : SymbolTable} {d : Declaration} {ds : List Declaration} {annotationType : Name}

theorem interfaceLookups_ok (h : interfaceLookups t annotationType d = .ok ds) :
    ∃ scope, Scope.resolve t d = .ok scope ∧
      ds = [{ emptyLookup d.name.flatten d scope with supertypes := [d.name] }] := by
  unfold interfaceLookups at h
  cases hl : interfaceLookup t annotationType d with
  | error e => rw [hl] at h; exact nomatch h
  | ok lookup =>
      rw [hl] at h
      simp only [interfaceLookup, bind_eq_ok, pure_eq_ok] at hl
      obtain ⟨_, _, _, _, scope, hscope, rfl⟩ := hl
      exact ⟨scope, hscope, (Except.ok.inj h).symm⟩

theorem bindingLookups_ok (h : bindingLookups t annotationType d = .ok ds) :
    ∃ scope bindings, Scope.resolve t d = .ok scope ∧
      Binding.collect t d [] (d.annotationsOf annotationType) = .ok bindings ∧
      ds = bindings.map (Binding.lookup d scope) := by
  simp only [bindingLookups, bind_eq_ok, pure_eq_ok] at h
  obtain ⟨_, _, _, _, scope, hscope, bindings, hbindings, rfl⟩ := h
  exact ⟨scope, bindings, hscope, hbindings, rfl⟩

/-- The bindings are what the usages of the annotation are understood as, one by one. -/
theorem forall₂_of_collect {earlier bindings : List Binding} {usages : List AnnotationUsage}
    (h : Binding.collect t d earlier usages = .ok bindings) :
    List.Forall₂ (fun usage binding => Binding.ofUsage t d usage = .ok binding) usages
      bindings := by
  induction usages generalizing earlier bindings with
  | nil =>
      obtain rfl := Except.ok.inj h
      exact .nil
  | cons first rest ih =>
      simp only [Binding.collect, bind_eq_ok, pure_eq_ok] at h
      obtain ⟨binding, hbinding, _, _, later, hlater, rfl⟩ := h
      exact .cons hbinding (ih hlater)

theorem subcomponentLookups_ok (h : subcomponentLookups t d = .ok ds) :
    ∃ shape scope, SubcomponentShape.ofSubcomponent t d = .ok shape ∧
      Scope.resolve t shape.factory = .ok scope ∧
      ds = [{ emptyLookup shape.factory.name.flatten shape.factory scope with
              supertypes := [shape.factory.name]
              annotations := [scopeRecord scope, { type := subcomponentFactoryMarker }] }] := by
  unfold subcomponentLookups at h
  cases hl : subcomponentLookup t d with
  | error e => rw [hl] at h; exact nomatch h
  | ok lookup =>
      rw [hl] at h
      obtain ⟨shape, scope, hshape, hscope, rfl⟩ := subcomponentLookup_eq_ok_iff.mp hl
      exact ⟨shape, scope, hshape, hscope, (Except.ok.inj h).symm⟩

/-- The marker that a custom annotation is recorded by. -/
def markerOf (d : Declaration) : Declaration :=
  { Declaration.topLevel .property extendNamespace d.name.flatten with origin := some d.name }

theorem markers_ok (h : markers d = .ok ds) : ds = [markerOf d] := by
  unfold markers at h
  cases hm : marker d with
  | error e => rw [hm] at h; exact nomatch h
  | ok found =>
      rw [hm] at h
      simp only [marker, bind_eq_ok, pure_eq_ok] at hm
      obtain ⟨_, _, _, _, rfl⟩ := hm
      exact (Except.ok.inj h).symm

/-- Only annotation classes have markers. -/
theorem kind_of_markers (h : markers d = .ok ds) : d.kind = .annotationClass := by
  unfold markers at h
  cases hm : marker d with
  | error e => rw [hm] at h; exact nomatch h
  | ok found =>
      simp only [marker, bind_eq_ok, refuseUnless_eq_ok] at hm
      obtain ⟨_, hkind, _⟩ := hm
      exact of_decide_eq_true hkind

theorem strayFactoryCheck_ok (h : strayFactoryCheck t d = .ok ds) : ds = [] := by
  unfold strayFactoryCheck at h
  cases he : SubcomponentShape.enclosing t d with
  | error e => rw [he] at h; exact nomatch h
  | ok found => rw [he] at h; exact (Except.ok.inj h).symm

end Contribution

/-! ## Names -/

namespace Text

variable {separator : Char} {xs ys : List Char}

theorem splitChars_ne_nil (separator : Char) (xs : List Char) : splitChars separator xs ≠ [] := by
  induction xs with
  | nil => simp [splitChars]
  | cons c rest ih =>
      rw [splitChars]
      split
      · simp
      · simpa [List.modifyHead_eq_nil_iff] using ih

theorem splitChars_of_notMem (h : separator ∉ ys) : splitChars separator ys = [ys] := by
  induction ys with
  | nil => rfl
  | cons c rest ih =>
      rw [List.mem_cons, not_or] at h
      rw [splitChars, if_neg (fun hc => h.1 hc.symm), ih h.2]
      rfl

/-- What follows the last separator is the last piece. -/
theorem splitChars_append (xs : List Char) (h : separator ∉ ys) :
    splitChars separator (xs ++ separator :: ys) = splitChars separator xs ++ [ys] := by
  induction xs with
  | nil =>
      have hcut : splitChars separator (separator :: ys) = [] :: splitChars separator ys := by
        rw [splitChars, if_pos rfl]
      rw [List.nil_append, hcut, splitChars_of_notMem h]
      rfl
  | cons c rest ih =>
      rw [List.cons_append, splitChars, splitChars, ih]
      split
      · rfl
      · cases hs : splitChars separator rest with
        | nil => exact absurd hs (splitChars_ne_nil _ _)
        | cons piece pieces => rfl

end Text

theorem Name.simpleName_inPackage (package : String) {simple : String}
    (h : '.' ∉ simple.toList) : (inPackage package simple).simpleName = simple := by
  unfold inPackage simpleName Text.pieces
  split
  · dsimp only
    rw [Text.splitChars_of_notMem h]
    simp
  · have hchars : (package ++ "." ++ simple).toList = package.toList ++ '.' :: simple.toList := by
      simp
    dsimp only
    rw [hchars, Text.splitChars_append _ h]
    simp

/-! ## Aggregates and final components -/

/-- An inert declaration that is no lookup: a merge passes over it as well. -/
def Declaration.Passive (d : Declaration) : Prop :=
  d.Inert ∧ d.isLookup = false

theorem Declaration.passive_of_annotations {d : Declaration} (hp : d.parameters = [])
    (ha : ∀ usage ∈ d.annotations, usage.type ∉ contributionScope :: inputOnly) : d.Passive := by
  refine ⟨inert_of_annotations hp fun usage hu hin => ?_,
    isLookup_eq_false fun usage hu heq => ?_⟩
  · exact ha usage hu (List.mem_cons_of_mem _ hin)
  · exact ha usage hu (heq ▸ List.mem_cons_self)

theorem Contribution.passive_markerOf (d : Declaration) : (markerOf d).Passive :=
  Declaration.passive_of_annotations rfl fun _ hu => nomatch hu

theorem Scope.resolve_ok_cases {t : SymbolTable} {d : Declaration} {scope : Scope}
    (h : resolve t d = .ok scope) : scope ∈ classLevel t d ∨ scope ∈ explicit t d := by
  unfold resolve at h
  dsimp only at h
  split at h
  · exact nomatch h
  · split at h
    · exact nomatch h
    · split at h
      · unfold ofClassLevel at h
        split at h
        · exact nomatch h
        · next own _ hown =>
          obtain rfl := Except.ok.inj h
          exact Or.inl (by rw [hown]; exact List.mem_cons_self)
      · next given _ hgiven =>
        split at h
        · exact nomatch h
        · unfold ofExplicit at h
          split at h
          · obtain rfl := Except.ok.inj h
            exact Or.inr (by rw [hgiven]; exact List.mem_cons_self)
          · split at h <;> exact nomatch h

/-- The annotation that a class-level scope comes from is a scope marker. -/
theorem Scope.isScopeMarker_of_resolve {t : SymbolTable} {d : Declaration} {scope : Scope}
    (h : resolve t d = .ok scope) {n : Name} (hn : scope.markerAnnotation? = some n) :
    t.isScopeMarker n = true := by
  rcases resolve_ok_cases h with hclass | hexplicit
  · obtain ⟨usage, husage, rfl⟩ := List.mem_map.mp hclass
    obtain rfl := Option.some.inj hn
    exact (List.mem_filter.mp husage).2
  · obtain ⟨usage, _, hmap⟩ := List.mem_filterMap.mp hexplicit
    obtain ⟨marker, _, rfl⟩ := Option.map_eq_some_iff.mp hmap
    exact nomatch hn

namespace FinalComponents

variable {t : SymbolTable} {package : String} {parent : Name} {shape : SubcomponentShape}

theorem passive_component (hb : t.SeesBuiltins) {subcomponent : Declaration}
    (h : SubcomponentShape.ofSubcomponent t subcomponent = .ok shape) :
    (component package parent shape).Passive := by
  obtain ⟨_, _, hscope, _, _, rfl⟩ := SubcomponentShape.ofSubcomponent_eq_ok_iff.mp h
  refine Declaration.passive_of_annotations rfl fun usage hu => ?_
  rcases List.mem_cons.mp hu with rfl | hu
  · decide
  · -- the scope annotation that the component takes over
    have hsome : shape.scopeAnnotation? = some usage := Option.mem_toList.mp hu
    obtain ⟨n, hn, hfind⟩ := Option.bind_eq_some_iff.mp hsome
    have htype : usage.type = n := by simpa using List.find?_some hfind
    intro hin
    rw [htype] at hin
    have hmarker := Scope.isScopeMarker_of_resolve hscope hn
    rw [SymbolTable.builtin_not_scopeMarker hb hin] at hmarker
    exact nomatch hmarker

theorem passive_of_generate (hb : t.SeesBuiltins) (lineage : List Name) (parent : Name)
    (contributions : List Declaration) {result : FinalComponents}
    (h : generate t package lineage parent contributions = .ok result) :
    ∀ d ∈ result.declarations, d.Passive := by
  -- the declarations of a final component come before those of its own subcomponents
  induction lineage, parent, contributions using generate.induct t generalizing result with
  | case1 lineage parent =>
      rw [generate] at h
      obtain rfl := Except.ok.inj h
      intro d hd
      cases hd
  | case2 lineage parent lookup rest hsub error herror =>
      obtain ⟨shape, _, _, hshape, _⟩ := (generate_cons_eq_ok_iff hsub).mp h
      rw [herror] at hshape
      cases hshape
  | case3 lineage parent lookup rest hsub shape hshape hcycle =>
      obtain ⟨found, _, _, hfound, hnot, _⟩ := (generate_cons_eq_ok_iff hsub).mp h
      rw [hshape] at hfound
      obtain rfl := Except.ok.inj hfound
      exact absurd hcycle hnot
  | case4 lineage parent lookup rest hsub shape hshape path hcycle final contributions
      ihnested =>
      rename_i ihothers
      obtain ⟨found, nested, others, hfound, _, hnested, hothers, rfl⟩ :=
        (generate_cons_eq_ok_iff hsub).mp h
      rw [hshape] at hfound
      obtain rfl := Except.ok.inj hfound
      intro d hd
      rcases List.mem_cons.mp hd with rfl | hd
      · exact passive_component hb (ofSubcomponent_of_shapeOf hshape)
      rcases List.mem_cons.mp hd with rfl | hd
      · exact Declaration.passive_of_annotations rfl fun _ hu => absurd hu List.not_mem_nil
      rcases List.mem_cons.mp hd with rfl | hd
      · exact Declaration.passive_of_annotations rfl fun _ hu => absurd hu List.not_mem_nil
      rcases List.mem_append.mp hd with hd | hd
      · exact ihnested hnested d hd
      · exact ihothers hothers d hd
  | case5 lineage parent lookup rest hsub ih =>
      rw [generate_cons_of_other (by simpa using hsub)] at h
      exact ih h

end FinalComponents

namespace Merge

/-- The name of an aggregate is the one its request can extend. -/
theorem name_aggregate {t : SymbolTable} {d : Declaration} {request : MergeRequest}
    (h : MergeRequest.parse t d = .ok request) (contributions : List Declaration)
    (factories : List Name) :
    (aggregate request contributions factories).name = d.aggregateName := by
  simp only [MergeRequest.parse, bind_eq_ok, pure_eq_ok] at h
  obtain ⟨_, _, _, _, rfl⟩ := h
  have hdots : '.' ∉ (d.joinedSimpleName ++ mergedSuffix).toList := by
    unfold Declaration.joinedSimpleName mergedSuffix
    simp
  unfold aggregate Declaration.topLevel Declaration.aggregateName
  dsimp only
  rw [Name.simpleName_inPackage _ hdots]

/-- **A merge generates nothing that a later round, or a later merge, looks at.** -/
theorem passive_of_finalize {t : SymbolTable} (hb : t.SeesBuiltins) {d : Declaration}
    {file : SourceFile} (h : finalize t d = .ok file) :
    ∀ e ∈ file.declarations, e.Passive := by
  obtain ⟨request, finals, _, hfinals, rfl⟩ := finalize_eq_ok_iff.mp h
  intro e he
  rcases List.mem_cons.mp he with rfl | he
  · exact Declaration.passive_of_annotations rfl fun _ hu => nomatch hu
  · exact FinalComponents.passive_of_generate hb _ _ _ hfinals e he

end Merge

end ScopeMerge
