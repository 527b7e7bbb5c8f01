import ScopeMerge.Proofs.Correspondence
import ScopeMerge.Proofs.Refusals
import ScopeMerge.Proofs.Reporting

/-!
# Factories that are nested nowhere

A factory is contributed through the subcomponent that it is nested in, and a factory that
is *stray*, nested in no contributed subcomponent, is to be reported. The processor looks
at the subcomponents first and then at those factories that it has not taken by then. A
declaration with both annotations is taken as a subcomponent, and nobody asks any more
where it is nested.

So there are three kinds of factories in a compilation that has no prior results:

* a nested one has its one lookup when the compilation succeeds
  (`factoryLookups_of_nested`);
* a stray one that is no subcomponent is reported in the first round (`compile_of_stray`);
* a stray one that is a subcomponent as well is neither: it has no lookup and may go
  unreported (`factoryLookups_of_stray`).
-/

namespace ScopeMerge

open Vocabulary Contribution Attempt

theorem Contribution.subcomponentLookups_eq_ok_iff {t : SymbolTable} {d : Declaration}
    {es : List Declaration} :
    subcomponentLookups t d = .ok es ↔ ∃ lookup, subcomponentLookup t d = .ok lookup ∧
      es = [lookup] := by
  unfold subcomponentLookups
  cases subcomponentLookup t d with
  | error error => simp [Except.map]
  | ok lookup => simp [Except.map, eq_comm]

namespace Session

variable {options : Options} {inputs : List Input} {final : State} {d s : Declaration}

/-- A declaration names a contributed subcomponent among the sources as its parent. -/
def NestedInSubcomponent (inputs : List Input) (d : Declaration) : Prop :=
  ∃ s ∈ sourceDeclarations inputs,
    d.parent = some s.name ∧ s.isAnnotatedWith contributesSubcomponent = true

instance (inputs : List Input) (d : Declaration) : Decidable (NestedInSubcomponent inputs d) :=
  inferInstanceAs (Decidable (∃ s ∈ sourceDeclarations inputs, _))

/-- The generated lookups for a subcomponent that stand for a declaration of a name. -/
def State.factoryLookups (state : State) (name : Name) : List Declaration :=
  state.generatedLookups.filter fun lookup =>
    lookup.isSubcomponentLookup && lookup.origin = some name

theorem State.mem_factoryLookups_iff {name : Name} {lookup : Declaration} :
    lookup ∈ final.factoryLookups name ↔
      lookup ∈ final.generatedLookups ∧ lookup.isSubcomponentLookup = true ∧
        lookup.origin = some name := by
  unfold factoryLookups
  rw [List.mem_filter, Bool.and_eq_true, decide_eq_true_eq]

/-! ## Where a factory is nested -/

/-- Without prior results, what carries an annotation of the user is a source. -/
theorem mem_sources_of_annotated (halone : dependencyFiles inputs = [])
    (hs : s ∈ (loadedTable inputs).declarations)
    (hannotated : s.isAnnotatedWith contributesSubcomponent = true) :
    s ∈ sourceDeclarations inputs := by
  have hbuiltin : ∀ file ∈ SymbolTable.initial.files, ∀ e ∈ file.declarations,
      e.isAnnotatedWith contributesSubcomponent = false := by
    decide
  obtain ⟨file, hfile, hs⟩ := SymbolTable.mem_declarations_iff.mp hs
  rw [files_loadedTable] at hfile
  rcases List.mem_append.mp hfile with hfile | hfile
  · rw [hbuiltin file hfile s hs] at hannotated
    cases hannotated
  · have hall := (inputFiles_perm inputs).symm.subset hfile
    rw [halone, List.nil_append] at hall
    exact List.mem_flatMap.mpr ⟨file, hall, hs⟩

/-- The check of a factory passes exactly if the factory is nested in a contributed
subcomponent. -/
theorem exists_enclosing_iff (hr : Ready (loadedTable inputs))
    (halone : dependencyFiles inputs = []) :
    (∃ s, SubcomponentShape.enclosing (loadedTable inputs) d = .ok s) ↔
      NestedInSubcomponent inputs d := by
  refine ⟨?_, ?_⟩
  · rintro ⟨s, henclosing⟩
    obtain ⟨parent, hparent, hfind, hannotated⟩ :=
      SubcomponentShape.enclosing_eq_ok_iff.mp henclosing
    obtain ⟨hmem, hname⟩ := SymbolTable.find?_eq_some hfind
    exact ⟨s, mem_sources_of_annotated halone hmem hannotated, by rw [hparent, hname], hannotated⟩
  · rintro ⟨s, hs, hparent, hannotated⟩
    rw [← localDeclarations_loadedTable] at hs
    exact ⟨s, SubcomponentShape.enclosing_eq_ok_iff.mpr
      ⟨s.name, hparent, find?_of_source hr hs, hannotated⟩⟩

/-! ## The lookups of a factory -/

/-- A lookup of a factory was written for the subcomponent that the factory is nested in. -/
theorem subcomponent_of_factoryLookup (h : Succeeded options (loadedTable inputs) final)
    (hdistinct : ∀ file ∈ inputFiles inputs, file.DistinctNames)
    (hd : d ∈ sourceDeclarations inputs) {lookup : Declaration}
    (hlookup : lookup ∈ final.factoryLookups d.name) :
    ∃ s ∈ sourceDeclarations inputs, d.parent = some s.name ∧
      s.isAnnotatedWith contributesSubcomponent = true ∧
      subcomponentLookup (loadedTable inputs) s = .ok lookup := by
  obtain ⟨hgenerated, hsub, horigin⟩ := State.mem_factoryLookups_iff.mp hlookup
  rw [h.generatedLookups_eq] at hgenerated
  obtain ⟨file, hfile, hmem⟩ := List.mem_flatMap.mp (List.mem_of_mem_filter hgenerated)
  obtain ⟨channel, hchannel, s, hs, haccepts, es, hes, e, he, rfl⟩ := mem_written_emissions.mp hfile
  obtain rfl := List.mem_singleton.mp hmem
  obtain ⟨processor, _, hchannel⟩ := List.mem_flatMap.mp hchannel
  obtain ⟨_, hannotated, hresult⟩ := subcomponentLookup_of_contribute hchannel haccepts hes he hsub
  obtain ⟨shape, scope, hshape, _, hlookup⟩ := subcomponentLookup_eq_ok_iff.mp hresult
  obtain ⟨hfactory, hparent⟩ := find?_of_factory h.ready (distinctNames_loadedTable hdistinct)
    (SubcomponentShape.factory_mem_of_ofSubcomponent hshape)
  -- the origin of the lookup is the factory, so the factory is `d`
  have hname : shape.factory.name = d.name := by
    rw [hlookup] at horigin
    exact Option.some.inj horigin
  rw [← localDeclarations_loadedTable] at hd
  rw [hname, find?_of_source h.ready hd] at hfactory
  obtain rfl := Option.some.inj hfactory
  rw [localDeclarations_loadedTable] at hs
  exact ⟨s, hs, hparent, hannotated, hresult⟩

/-- No two lookups stand for one factory. -/
theorem eq_of_mem_factoryLookups (h : Succeeded options (loadedTable inputs) final)
    (hdistinct : ∀ file ∈ inputFiles inputs, file.DistinctNames)
    (hd : d ∈ sourceDeclarations inputs) {lookup other : Declaration}
    (hlookup : lookup ∈ final.factoryLookups d.name)
    (hother : other ∈ final.factoryLookups d.name) : other = lookup := by
  obtain ⟨s, hs, hparent, _, hresult⟩ := subcomponent_of_factoryLookup h hdistinct hd hlookup
  obtain ⟨s', hs', hparent', _, hresult'⟩ := subcomponent_of_factoryLookup h hdistinct hd hother
  rw [← localDeclarations_loadedTable] at hs hs'
  have hname : s'.name = s.name := Option.some.inj (hparent'.symm.trans hparent)
  have hsame : some s' = some s := by
    rw [← find?_of_source h.ready hs', hname, find?_of_source h.ready hs]
  rw [Option.some.inj hsame, hresult] at hresult'
  exact (Except.ok.inj hresult').symm

theorem exists_factoryLookup (h : Succeeded options (loadedTable inputs) final)
    (hon : options.isDisabled Processor.contributesSubcomponent.id = false)
    (hd : d ∈ sourceDeclarations inputs) (hfactory : d.isAnnotatedWith subcomponentFactory = true)
    (hnested : NestedInSubcomponent inputs d) : ∃ lookup, lookup ∈ final.factoryLookups d.name := by
  obtain ⟨s, hs, hparent, hannotated⟩ := hnested
  rw [← localDeclarations_loadedTable] at hd hs
  have henabled : Processor.contributesSubcomponent ∈ Round.recording options :=
    List.mem_filter.mpr ⟨by decide, by simpa using hon⟩
  obtain ⟨es, hes, hemitted⟩ := exists_emitted h.goesThrough.emits
    (List.mem_flatMap.mpr ⟨_, henabled, List.mem_cons_self⟩) hs hannotated
  obtain ⟨lookup, hresult, rfl⟩ := subcomponentLookups_eq_ok_iff.mp hes
  obtain ⟨shape, scope, hshape, _, hlookup⟩ := subcomponentLookup_eq_ok_iff.mp hresult
  -- the subcomponent has no other factory
  have hsole : d = shape.factory := by
    have hmem : d ∈ SubcomponentShape.factories (loadedTable inputs) s :=
      SubcomponentShape.mem_factories_iff.mpr
        ⟨⟨d, SymbolTable.localDeclarations_subset hd, hparent, find?_of_source h.ready hd⟩,
          hfactory⟩
    rw [SubcomponentShape.mem_factories_of_ofSubcomponent hshape] at hmem
    exact List.mem_singleton.mp hmem
  have hstands : lookup.StandsFor shape.factory scope := by
    rw [hlookup]
    exact ⟨rfl, rfl, rfl, rfl, Or.inr rfl⟩
  refine ⟨lookup, State.mem_factoryLookups_iff.mpr ⟨?_, ?_, ?_⟩⟩
  · rw [h.generatedLookups_eq]
    refine List.mem_filter.mpr ⟨?_, hstands.isLookup⟩
    exact List.mem_flatMap.mpr ⟨_, hemitted _ List.mem_cons_self, List.mem_singleton_self _⟩
  · rw [isSubcomponentLookup_of_annotations scope hstands, hlookup]
    exact decide_eq_true (by simp)
  · rw [hstands.origin, hsole]

/-- **A nested factory has one lookup.** -/
theorem factoryLookups_of_nested (h : Succeeded options (loadedTable inputs) final)
    (hdistinct : ∀ file ∈ inputFiles inputs, file.DistinctNames)
    (hon : options.isDisabled Processor.contributesSubcomponent.id = false)
    (hd : d ∈ sourceDeclarations inputs) (hfactory : d.isAnnotatedWith subcomponentFactory = true)
    (hnested : NestedInSubcomponent inputs d) :
    ∃ lookup, final.factoryLookups d.name = [lookup] := by
  obtain ⟨lookup, hlookup⟩ := exists_factoryLookup h hon hd hfactory hnested
  have hnodup : (final.factoryLookups d.name).Nodup :=
    (List.Nodup.of_map _ h.nodup_generatedLookups).filter _
  refine ⟨lookup, List.perm_singleton.mp ?_⟩
  refine (List.perm_ext_iff_of_nodup hnodup (List.nodup_singleton _)).mpr fun other => ?_
  rw [List.mem_singleton]
  refine ⟨eq_of_mem_factoryLookups h hdistinct hd hlookup, ?_⟩
  rintro rfl
  exact hlookup

/-- A stray factory has no lookup. -/
theorem factoryLookups_of_stray (h : Succeeded options (loadedTable inputs) final)
    (hdistinct : ∀ file ∈ inputFiles inputs, file.DistinctNames)
    (hd : d ∈ sourceDeclarations inputs) (hstray : ¬ NestedInSubcomponent inputs d) :
    final.factoryLookups d.name = [] := by
  rw [List.eq_nil_iff_forall_not_mem]
  intro lookup hlookup
  obtain ⟨s, hs, hparent, hannotated, _⟩ := subcomponent_of_factoryLookup h hdistinct hd hlookup
  exact hstray ⟨s, hs, hparent, hannotated⟩

/-! ## The report -/

/-- **A stray factory that is no subcomponent is reported.** -/
theorem compile_of_stray (hw : (loadedTable inputs).WellFormed)
    (hdistinct : ∀ file ∈ inputFiles inputs, file.DistinctNames)
    (halone : dependencyFiles inputs = [])
    (hon : options.isDisabled Processor.contributesSubcomponent.id = false)
    (hd : d ∈ sourceDeclarations inputs) (hfactory : d.isAnnotatedWith subcomponentFactory = true)
    (hplain : d.isAnnotatedWith contributesSubcomponent = false)
    (hstray : ¬ NestedInSubcomponent inputs d) (n : Nat) :
    ∃ diagnostics, compile options (n + 1) inputs = .error (.failed diagnostics) ∧
      .ofError (.factoryNotNested d.name) ∈ diagnostics := by
  have hr := ready_loadedTable hw hdistinct
  have hvisible : (firstTable inputs).find? d.name = some d := by
    rw [← localDeclarations_loadedTable] at hd
    exact find?_of_source hr hd
  have hcheck : strayFactoryCheck (firstTable inputs) d =
      .error (.factoryNotNested d.name) := by
    unfold strayFactoryCheck
    cases henclosing : SubcomponentShape.enclosing (firstTable inputs) d with
    | ok s => exact absurd ((exists_enclosing_iff hr halone).mp ⟨s, henclosing⟩) hstray
    | error error =>
        rw [SubcomponentShape.enclosing_error henclosing]
        rfl
  -- the declaration was not taken as a subcomponent, so it is looked at as a factory
  have hattempted : d ∈ Round.untaken (Round.takenAfter []
      ((firstTable inputs).delivered contributesSubcomponent))
      ((firstTable inputs).delivered subcomponentFactory) := by
    refine Round.mem_untaken_delivered_iff.mpr ⟨mem_delivered_first hd hvisible hfactory, ?_⟩
    rw [Round.mem_takenAfter_iff]
    rintro (hnil | ⟨e, he, hname⟩)
    · exact absurd hnil List.not_mem_nil
    · have hsame : some e = some d := by
        rw [← SymbolTable.find?_of_delivered he, hname, hvisible]
      obtain ⟨_, _, _, _, hannotated⟩ := SymbolTable.mem_delivered_iff.mp he
      rw [Option.some.inj hsame, hplain] at hannotated
      cases hannotated
  have henabled : Processor.contributesSubcomponent ∈ Round.recording options :=
    List.mem_filter.mpr ⟨by decide, by simpa using hon⟩
  have hentry : .ofError (.factoryNotNested d.name) ∈
      Deed.entries [] (firstDeeds options inputs) := by
    refine mem_entries_first henabled
      (List.mem_append_right _ (List.mem_flatMap.mpr ⟨d, hattempted, ?_⟩))
    rw [hcheck]
    exact List.mem_singleton_self _
  exact ⟨_, compile_of_error hw hentry rfl n, hentry⟩

/-- **Factories are nested and contributed, or reported, unless they are subcomponents too.** In a
compilation without prior results that succeeds, a factory either is nested in a contributed
subcomponent and has one lookup, or it is stray, has none, and is annotated as a subcomponent
itself. A stray factory without that second annotation is reported whenever the sources can be
loaded. -/
theorem stray_factories_are_reported {n : Nat}
    (hdistinct : ∀ file ∈ inputFiles inputs, file.DistinctNames)
    (halone : dependencyFiles inputs = [])
    (hon : options.isDisabled Processor.contributesSubcomponent.id = false) :
    (∀ final, compile options n inputs = .ok final →
        ∀ d ∈ sourceDeclarations inputs, d.isAnnotatedWith subcomponentFactory = true →
          (NestedInSubcomponent inputs d ∧ ∃ lookup, final.factoryLookups d.name = [lookup]) ∨
          (¬ NestedInSubcomponent inputs d ∧ d.isAnnotatedWith contributesSubcomponent = true ∧
            final.factoryLookups d.name = [])) ∧
      ((loadedTable inputs).WellFormed →
        ∀ d ∈ sourceDeclarations inputs, d.isAnnotatedWith subcomponentFactory = true →
          d.isAnnotatedWith contributesSubcomponent = false → ¬ NestedInSubcomponent inputs d →
            ∃ diagnostics, compile options (n + 1) inputs = .error (.failed diagnostics) ∧
              .ofError (.factoryNotNested d.name) ∈ diagnostics) := by
  refine ⟨?_, ?_⟩
  · intro final h d hd hfactory
    have hs := succeeded_of_compile hdistinct h
    by_cases hnested : NestedInSubcomponent inputs d
    · exact Or.inl ⟨hnested, factoryLookups_of_nested hs hdistinct hon hd hfactory hnested⟩
    · refine Or.inr ⟨hnested, ?_, factoryLookups_of_stray hs hdistinct hd hnested⟩
      cases hplain : d.isAnnotatedWith contributesSubcomponent with
      | true => rfl
      | false =>
          -- it would have been reported, and a compilation without any round has no result
          obtain ⟨hw, hcomplete⟩ := compile_eq_ok_iff.mp h
          cases n with
          | zero => cases hcomplete
          | succ n =>
              obtain ⟨diagnostics, hfails, _⟩ :=
                compile_of_stray hw hdistinct halone hon hd hfactory hplain hnested n
              rw [hfails] at h
              cases h
  · intro hw d hd hfactory hplain hstray
    exact compile_of_stray hw hdistinct halone hon hd hfactory hplain hstray n

end Session

/-! ## A stray factory that goes unreported -/

namespace Sample

/-- A login that is contributed as a subcomponent and, by mistake, as a factory as well. -/
def twofoldLogin : Declaration :=
  { Declaration.topLevel .interface "com.app" "Login" with
    annotations := [{ type := contributesSubcomponent }, withScope subcomponentFactory appScope] }

/-- The login with a factory of its own. -/
def twofold : List Session.Input :=
  [.sources { files :=
    [{ id := ⟨"Login.kt"⟩, declarations := [twofoldLogin, factoryOf twofoldLogin appScope] }] }]

theorem distinct_twofold : ∀ file ∈ Session.inputFiles twofold, file.DistinctNames := by
  decide

theorem twofold_compiles : ∃ final, Session.compile {} 4 twofold = .ok final := by
  have hgoes : Session.requests {} (Session.loadedTable twofold) = [] ∧
      AllSucceed (Session.emissions {} (Session.loadedTable twofold)) ∧
      ((Session.loadedTable twofold).append
        (Session.emitted {} (Session.loadedTable twofold)) true).WellFormed := by
    decide
  exact (Session.compile_ok_iff distinct_twofold (Nat.le_refl 4)).mpr
    (Session.goesThrough_of_no_requests hgoes.1 hgoes.2.1 hgoes.2.2)

end Sample

namespace Session

/-- The factory of the login has its lookup, and the login has none. -/
theorem twofold_factories : ∃ final, compile {} 4 Sample.twofold = .ok final ∧
    (∃ lookup, final.factoryLookups (Sample.factoryOf Sample.twofoldLogin Sample.appScope).name =
      [lookup]) ∧
    final.factoryLookups Sample.twofoldLogin.name = [] := by
  obtain ⟨final, hfinal⟩ := Sample.twofold_compiles
  obtain ⟨hall, _⟩ :=
    @stray_factories_are_reported {} Sample.twofold 4 Sample.distinct_twofold (by decide)
      (by decide)
  refine ⟨final, hfinal, ?_, ?_⟩
  · have hnested : NestedInSubcomponent Sample.twofold
        (Sample.factoryOf Sample.twofoldLogin Sample.appScope) := by
      decide
    rcases hall final hfinal (Sample.factoryOf Sample.twofoldLogin Sample.appScope) (by decide)
      (by decide) with ⟨_, hone⟩ | ⟨hstray, _⟩
    · exact hone
    · exact absurd hnested hstray
  · have hstray : ¬ NestedInSubcomponent Sample.twofold Sample.twofoldLogin := by
      decide
    rcases hall final hfinal Sample.twofoldLogin (by decide) (by decide) with
      ⟨hnested, _⟩ | ⟨_, _, hnone⟩
    · exact absurd hnested hstray
    · exact hnone

/-- **A stray factory can go unreported.** The login is a factory that is nested nowhere, and the
compilation succeeds without a lookup for it. -/
theorem twofold_login_is_not_reported :
    ¬ ∀ (inputs : List Input) (n : Nat) (final : State),
      (∀ file ∈ inputFiles inputs, file.DistinctNames) → dependencyFiles inputs = [] →
      compile {} n inputs = .ok final →
      ∀ d ∈ sourceDeclarations inputs, d.isAnnotatedWith subcomponentFactory = true →
        NestedInSubcomponent inputs d ∧ ∃ lookup, final.factoryLookups d.name = [lookup] := by
  intro hall
  obtain ⟨final, hfinal⟩ := Sample.twofold_compiles
  have hstray : ¬ NestedInSubcomponent Sample.twofold Sample.twofoldLogin := by
    decide
  obtain ⟨hnested, _⟩ := hall Sample.twofold 4 final Sample.distinct_twofold (by decide) hfinal
    Sample.twofoldLogin (by decide) (by decide)
  exact hstray hnested

end Session

end ScopeMerge
