import ScopeMerge.Proofs.Rounds
import Mathlib.Data.List.Perm.Basic

/-!
# What the declarations of a compilation contribute

When every source is delivered at once, and no two sources share a name, it no
longer matters what was taken before: what the recording processors attempt is a
function of the sources. `channels` lists the ways in which a processor takes
declarations, and `emissions` is what all channels make of some declarations.

Three facts carry the rest of the development:

* `recordAttempts_first`: this is what the first round attempts;
* `emissions_congr`: it depends on nothing but how the declarations are read;
* `emissions_append_perm`: the emissions of two lots of declarations are the
  emissions of each, in another order.
-/

namespace ScopeMerge

open Vocabulary Attempt Contribution Round

/-- A way in which a processor takes declarations. -/
structure Channel where
  accepts : Declaration → Bool
  contribute : Declaration → Outcome

/-- The ways in which a processor takes declarations. A factory is only checked when the
declaration is not a contributed subcomponent itself, which is taken as one. -/
def Processor.channels (options : Options) (table : SymbolTable) : Processor → List Channel
  | contributingAnnotations => [⟨(·.isAnnotatedWith contributingAnnotation), markers⟩]
  | contributesTo =>
    [⟨(·.isAnnotatedWith Vocabulary.contributesTo),
      interfaceLookups table Vocabulary.contributesTo⟩]
  | contributesBinding =>
    [⟨(·.isAnnotatedWith Vocabulary.contributesBinding),
      bindingLookups table Vocabulary.contributesBinding⟩]
  | contributesSubcomponent =>
    [⟨(·.isAnnotatedWith Vocabulary.contributesSubcomponent), subcomponentLookups table⟩,
      ⟨fun d => d.isAnnotatedWith subcomponentFactory &&
          !d.isAnnotatedWith Vocabulary.contributesSubcomponent,
        strayFactoryCheck table⟩]
  | legacy =>
    [⟨(·.isAnnotatedWith legacyContributesTo),
      LegacyAnnotation.contributesTo.outcome options table⟩,
      ⟨(·.isAnnotatedWith legacyContributesBinding),
        LegacyAnnotation.contributesBinding.outcome options table⟩]
  | mergeComponent => []

/-- The channels of all processors that are switched on. -/
def Round.channels (options : Options) (table : SymbolTable) : List Channel :=
  (recording options).flatMap fun processor => processor.channels options table

/-- What a channel makes of the declarations it accepts. -/
def Channel.emissions (channel : Channel) (ds : List Declaration) : List Attempt :=
  (ds.filter channel.accepts).map fun d => ofOutcome (channel.contribute d)

/-- What some declarations contribute. -/
def Round.emissions (options : Options) (table : SymbolTable) (ds : List Declaration) :
    List Attempt :=
  (channels options table).flatMap fun channel => channel.emissions ds

/-! ## The first round -/

section First

variable {options : Options} {table : SymbolTable}

/-- No two declarations of the local files share a name. -/
theorem SymbolTable.nodup_names_localDeclarations (hw : table.WellFormed)
    (hdistinct : ∀ file ∈ table.localFiles, file.DistinctNames) :
    (table.localDeclarations.map (·.name)).Nodup :=
  SourceFile.nodup_names_flatMap hw.localFiles (fun _ _ => List.Subset.refl _) hdistinct

/-- What is delivered when every local file is new. -/
theorem SymbolTable.delivered_of_introduced (hw : table.WellFormed)
    (hdistinct : ∀ file ∈ table.localFiles, file.DistinctNames)
    (hnew : ∀ file ∈ table.localFiles, file.id ∈ table.introduced) (n : Name) :
    table.delivered n = table.localDeclarations.filter (·.isAnnotatedWith n) :=
  delivered_eq_filter hw hdistinct fun file hfile _ _ _ => Or.inl (hnew file hfile)

theorem attemptEach_nil_eq {contribute : Declaration → Outcome} {ds : List Declaration}
    (h : (ds.map (·.name)).Nodup) :
    attemptEach contribute [] ds = ds.map fun d => ofOutcome (contribute d) := by
  unfold attemptEach
  rw [untaken_eq_filter h]
  simp

theorem nodup_names_delivered (hw : table.WellFormed)
    (hdistinct : ∀ file ∈ table.localFiles, file.DistinctNames)
    (hnew : ∀ file ∈ table.localFiles, file.id ∈ table.introduced) (n : Name) :
    ((table.delivered n).map (·.name)).Nodup := by
  rw [SymbolTable.delivered_of_introduced hw hdistinct hnew]
  exact (List.filter_sublist.map _).nodup
    (SymbolTable.nodup_names_localDeclarations hw hdistinct)

/-- A factory is checked unless it was taken as a contributed subcomponent before. -/
theorem attemptEach_strayFactoryCheck (hw : table.WellFormed)
    (hdistinct : ∀ file ∈ table.localFiles, file.DistinctNames)
    (hnew : ∀ file ∈ table.localFiles, file.id ∈ table.introduced) :
    attemptEach (strayFactoryCheck table)
        (takenAfter [] (table.delivered contributesSubcomponent))
        (table.delivered subcomponentFactory)
      = Channel.emissions ⟨fun d => d.isAnnotatedWith subcomponentFactory &&
          !d.isAnnotatedWith contributesSubcomponent, strayFactoryCheck table⟩
          table.localDeclarations := by
  have hnames := SymbolTable.nodup_names_localDeclarations hw hdistinct
  have hdelivered := SymbolTable.delivered_of_introduced hw hdistinct hnew
  have hnodup := nodup_names_delivered hw hdistinct hnew
  unfold attemptEach Channel.emissions
  rw [untaken_eq_filter (hnodup _), hdelivered subcomponentFactory, List.filter_filter]
  refine congrArg _ (List.filter_congr fun d hd => ?_)
  have htaken : (takenAfter [] (table.delivered contributesSubcomponent)).contains d.name
      = d.isAnnotatedWith contributesSubcomponent := by
    rw [Bool.eq_iff_iff, List.contains_iff_mem]
    refine ⟨?_, ?_⟩
    · intro hmem
      unfold takenAfter at hmem
      rw [untaken_eq_filter (hnodup _)] at hmem
      simp only [List.append_nil, List.mem_reverse, List.mem_map] at hmem
      obtain ⟨e, he, hname⟩ := hmem
      rw [hdelivered] at he
      obtain ⟨helocal, heannotated⟩ := List.mem_filter.mp (List.mem_of_mem_filter he)
      -- names are distinct, so what was taken under this name is `d` itself
      rw [← List.inj_on_of_nodup_map hnames helocal hd hname]
      exact heannotated
    · intro hannotated
      refine name_mem_takenAfter ?_
      rw [hdelivered]
      exact List.mem_filter.mpr ⟨hd, hannotated⟩
  rw [htaken, Bool.and_comm]

/-- **What a processor attempts that has taken nothing yet** is what its channels make of the
sources. -/
theorem Processor.attempts_first (hw : table.WellFormed)
    (hdistinct : ∀ file ∈ table.localFiles, file.DistinctNames)
    (hnew : ∀ file ∈ table.localFiles, file.id ∈ table.introduced) (p : Processor) :
    p.attempts options table {} = (p.channels options table).flatMap
      (·.emissions table.localDeclarations) := by
  have hone : ∀ contribute n,
      attemptEach contribute [] (table.delivered n)
        = Channel.emissions ⟨(·.isAnnotatedWith n), contribute⟩ table.localDeclarations := by
    intro contribute n
    rw [attemptEach_nil_eq (nodup_names_delivered hw hdistinct hnew n),
      SymbolTable.delivered_of_introduced hw hdistinct hnew]
    rfl
  -- a processor with two channels attempts them one after the other
  cases p with
  | contributesSubcomponent =>
      unfold Processor.channels
      rw [List.flatMap_cons, List.flatMap_singleton]
      exact congrArg₂ _ (hone _ _) (attemptEach_strayFactoryCheck hw hdistinct hnew)
  | legacy =>
      unfold Processor.channels
      rw [List.flatMap_cons, List.flatMap_singleton]
      exact congrArg₂ _ (hone _ _) (hone _ _)
  | mergeComponent => rfl
  | _ =>
      unfold Processor.channels
      rw [List.flatMap_singleton]
      exact hone _ _

/-- **The first round attempts what the sources contribute.** -/
theorem recordAttempts_first (hw : table.WellFormed)
    (hdistinct : ∀ file ∈ table.localFiles, file.DistinctNames)
    (hnew : ∀ file ∈ table.localFiles, file.id ∈ table.introduced) :
    recordAttempts options table {} = emissions options table table.localDeclarations := by
  unfold recordAttempts emissions channels
  rw [List.flatMap_assoc]
  exact List.flatMap_congr fun p _ => Processor.attempts_first hw hdistinct hnew p

end First

/-! ## What the emissions are -/

section Members

variable {options : Options} {table : SymbolTable} {ds : List Declaration}

theorem allSucceed_emissions_iff :
    AllSucceed (emissions options table ds) ↔
      ∀ channel ∈ channels options table, ∀ d ∈ ds, channel.accepts d = true →
        ∃ es, channel.contribute d = .ok es := by
  unfold AllSucceed emissions Channel.emissions
  refine ⟨?_, ?_⟩
  · intro h channel hchannel d hd haccepts
    have hsome := h _ (List.mem_flatMap.mpr ⟨channel, hchannel,
      List.mem_map_of_mem (List.mem_filter.mpr ⟨hd, haccepts⟩)⟩)
    obtain ⟨files, hfiles⟩ := Option.isSome_iff_exists.mp hsome
    obtain ⟨es, hes, _⟩ := ofOutcome_eq_some_iff.mp hfiles
    exact ⟨es, hes⟩
  · intro h attempt hattempt
    obtain ⟨channel, hchannel, hmem⟩ := List.mem_flatMap.mp hattempt
    obtain ⟨d, hd, rfl⟩ := List.mem_map.mp hmem
    obtain ⟨hd, haccepts⟩ := List.mem_filter.mp hd
    obtain ⟨es, hes⟩ := h channel hchannel d hd haccepts
    rw [ofOutcome_eq_some_iff.mpr ⟨es, hes, rfl⟩]
    rfl

/-- What channels make of declarations is written in files of one declaration each. -/
theorem mem_written_channels {cs : List Channel} {file : SourceFile} :
    file ∈ written (cs.flatMap (·.emissions ds)) ↔
      ∃ channel ∈ cs, ∃ d ∈ ds, channel.accepts d = true ∧
        ∃ es, channel.contribute d = .ok es ∧ ∃ e ∈ es, file = .generated e := by
  rw [mem_written]
  unfold Channel.emissions
  refine ⟨?_, ?_⟩
  · intro h
    obtain ⟨files, hfiles, hfile⟩ := h
    obtain ⟨channel, hchannel, hmem⟩ := List.mem_flatMap.mp hfiles
    obtain ⟨d, hd, hsome⟩ := List.mem_map.mp hmem
    obtain ⟨hd, haccepts⟩ := List.mem_filter.mp hd
    obtain ⟨es, hes, rfl⟩ := ofOutcome_eq_some_iff.mp hsome
    obtain ⟨e, he, rfl⟩ := List.mem_map.mp hfile
    exact ⟨channel, hchannel, d, hd, haccepts, es, hes, e, he, rfl⟩
  · intro h
    obtain ⟨channel, hchannel, d, hd, haccepts, es, hes, e, he, rfl⟩ := h
    exact ⟨es.map fun e => .generated e, List.mem_flatMap.mpr ⟨channel, hchannel,
      List.mem_map.mpr ⟨d, List.mem_filter.mpr ⟨hd, haccepts⟩,
        ofOutcome_eq_some_iff.mpr ⟨es, hes, rfl⟩⟩⟩, List.mem_map_of_mem he⟩

theorem mem_written_emissions {file : SourceFile} :
    file ∈ written (emissions options table ds) ↔
      ∃ channel ∈ channels options table, ∃ d ∈ ds, channel.accepts d = true ∧
        ∃ es, channel.contribute d = .ok es ∧ ∃ e ∈ es, file = .generated e :=
  mem_written_channels

/-- A processor for contributions gives lookups only. -/
theorem givesLookups_of_channel {p : Processor} {channel : Channel}
    (hne : p ≠ .contributingAnnotations) (h : channel ∈ p.channels options table) :
    GivesLookups table channel.contribute := by
  unfold Processor.channels at h
  cases p with
  | contributingAnnotations => exact absurd rfl hne
  | contributesTo =>
      rw [List.mem_singleton.mp h]
      exact givesLookups_interface table _
  | contributesBinding =>
      rw [List.mem_singleton.mp h]
      exact givesLookups_binding table _
  | contributesSubcomponent =>
      rcases List.mem_cons.mp h with rfl | h
      · exact givesLookups_subcomponent table
      · rw [List.mem_singleton.mp h]
        exact givesLookups_strayFactoryCheck table
  | legacy =>
      rcases List.mem_cons.mp h with rfl | h
      · exact givesLookups_legacy table options _
      · rw [List.mem_singleton.mp h]
        exact givesLookups_legacy table options _
  | mergeComponent => exact nomatch h

/-- It looks at what carries an annotation that needs no registration. -/
theorem annotated_of_accepts {p : Processor} (hp : p ∈ Round.recording options)
    (hne : p ≠ .contributingAnnotations) {channel : Channel}
    (h : channel ∈ p.channels options table) {d : Declaration} (hd : channel.accepts d = true) :
    ∃ n ∈ Registry.builtin ++ Registry.legacy options, d.isAnnotatedWith n = true := by
  unfold Processor.channels at h
  cases p with
  | contributingAnnotations => exact absurd rfl hne
  | contributesTo | contributesBinding =>
      obtain rfl := List.mem_singleton.mp h
      exact ⟨_, by simp [Registry.builtin], hd⟩
  | contributesSubcomponent =>
      rcases List.mem_cons.mp h with rfl | h
      · exact ⟨_, by simp [Registry.builtin], hd⟩
      · obtain rfl := List.mem_singleton.mp h
        exact ⟨subcomponentFactory, by simp [Registry.builtin], (Bool.and_eq_true_iff.mp hd).1⟩
  | legacy =>
      -- the processor is on, so its annotations are registered
      have henabled : Registry.legacy options
          = [legacyContributesBinding, legacyContributesTo] := by
        have hon := (List.mem_filter.mp hp).2
        unfold Registry.legacy
        rw [if_neg (by simpa using hon)]
      rw [henabled]
      rcases List.mem_cons.mp h with rfl | h
      · exact ⟨_, by simp, hd⟩
      · obtain rfl := List.mem_singleton.mp h
        exact ⟨_, by simp, hd⟩
  | mergeComponent => exact nomatch h

/-- A channel records custom annotations, or it gives lookups for what carries an annotation that
needs no registration. -/
theorem channel_cases {channel : Channel} (h : channel ∈ channels options table) :
    channel = ⟨(·.isAnnotatedWith contributingAnnotation), markers⟩ ∨
      GivesLookups table channel.contribute ∧ ∀ d, channel.accepts d = true →
        ∃ n ∈ Registry.builtin ++ Registry.legacy options, d.isAnnotatedWith n = true := by
  obtain ⟨p, hp, hchannel⟩ := List.mem_flatMap.mp h
  by_cases hne : p = .contributingAnnotations
  · subst hne
    exact Or.inl (List.mem_singleton.mp hchannel)
  · exact Or.inr ⟨givesLookups_of_channel hne hchannel,
      fun _ => annotated_of_accepts hp hne hchannel⟩

/-- **What a channel makes of a declaration**, in full: the lookup of an interface, of a binding or
of a factory, or a marker. -/
theorem Processor.contribute_cases {p : Processor} {channel : Channel}
    (h : channel ∈ p.channels options table) {d e : Declaration}
    (haccepts : channel.accepts d = true) {es : List Declaration}
    (hes : channel.contribute d = .ok es) (he : e ∈ es) :
    (∃ scope, e = { emptyLookup d.name.flatten d scope with supertypes := [d.name] }) ∨
    (∃ scope binding, e = Binding.lookup d scope binding) ∨
    (p = .contributesSubcomponent ∧ d.isAnnotatedWith Vocabulary.contributesSubcomponent = true ∧
      subcomponentLookup table d = .ok e) ∨
    (p = .contributingAnnotations ∧ e = markerOf d) := by
  have hinterface : ∀ {annotationType}, interfaceLookups table annotationType d = .ok es →
      ∃ scope, e = { emptyLookup d.name.flatten d scope with supertypes := [d.name] } := by
    intro annotationType hes
    obtain ⟨scope, _, rfl⟩ := interfaceLookups_ok hes
    exact ⟨scope, List.mem_singleton.mp he⟩
  have hbinding : ∀ {annotationType}, bindingLookups table annotationType d = .ok es →
      ∃ scope binding, e = Binding.lookup d scope binding := by
    intro annotationType hes
    obtain ⟨scope, bindings, _, _, rfl⟩ := bindingLookups_ok hes
    obtain ⟨binding, _, rfl⟩ := List.mem_map.mp he
    exact ⟨scope, binding, rfl⟩
  unfold Processor.channels at h
  cases p with
  | contributingAnnotations =>
      obtain rfl := List.mem_singleton.mp h
      rw [markers_ok hes] at he
      exact Or.inr (Or.inr (Or.inr ⟨rfl, List.mem_singleton.mp he⟩))
  | contributesTo =>
      obtain rfl := List.mem_singleton.mp h
      exact Or.inl (hinterface hes)
  | contributesBinding =>
      obtain rfl := List.mem_singleton.mp h
      exact Or.inr (Or.inl (hbinding hes))
  | contributesSubcomponent =>
      rcases List.mem_cons.mp h with rfl | h
      · obtain ⟨shape, scope, hshape, hscope, rfl⟩ := subcomponentLookups_ok hes
        rw [List.mem_singleton.mp he]
        exact Or.inr (Or.inr (Or.inl ⟨rfl, haccepts,
          subcomponentLookup_eq_ok_iff.mpr ⟨shape, scope, hshape, hscope, rfl⟩⟩))
      · obtain rfl := List.mem_singleton.mp h
        rw [strayFactoryCheck_ok hes] at he
        exact nomatch he
  | legacy =>
      rcases List.mem_cons.mp h with rfl | h
      · exact Or.inl <| hinterface <| LegacyAnnotation.lookups_of_outcome hes
      · obtain rfl := List.mem_singleton.mp h
        exact Or.inr <| Or.inl <| hbinding <| LegacyAnnotation.lookups_of_outcome hes
  | mergeComponent => exact nomatch h

/-- Whatever is emitted is a lookup or the marker of a custom annotation class. -/
theorem emitted_cases {file : SourceFile} (h : file ∈ written (emissions options table ds)) :
    ∃ e, file = .generated e ∧ ∃ d ∈ ds,
      (∃ contributor scope, e.StandsFor contributor scope ∧
        (contributor = d ∨ contributor ∈ SubcomponentShape.factories table d) ∧
        ∃ n ∈ Registry.builtin ++ Registry.legacy options, d.isAnnotatedWith n = true) ∨
      (e = markerOf d ∧ d.isAnnotatedWith contributingAnnotation = true ∧
        d.kind = .annotationClass) := by
  obtain ⟨channel, hchannel, d, hd, haccepts, es, hes, e, he, rfl⟩ := mem_written_emissions.mp h
  rcases channel_cases hchannel with rfl | ⟨hlookups, hannotated⟩
  · rw [markers_ok hes, List.mem_singleton] at he
    exact ⟨e, rfl, d, hd, Or.inr ⟨he, haccepts, kind_of_markers hes⟩⟩
  · obtain ⟨contributor, scope, hstands, hcontributor⟩ := hlookups d es hes e he
    exact ⟨e, rfl, d, hd,
      Or.inl ⟨contributor, scope, hstands, hcontributor, hannotated d haccepts⟩⟩

end Members

/-! ## What the emissions depend on -/

section Congruence

variable {options : Options} {t t' : SymbolTable} {d : Declaration}

/-- Two tables that a declaration contributes alike in: its annotations read the same, it has the
same factories, and it is nested in the same subcomponent. -/
structure SameContext (t t' : SymbolTable) (d : Declaration) : Prop where
  shape : SubcomponentShape.SameShape t t' d
  /-- The factories are read the same as well. -/
  factories : ∀ factory ∈ SubcomponentShape.factories t d, SameReading t t' factory
  enclosing : (SubcomponentShape.enclosing t d).toOption
    = (SubcomponentShape.enclosing t' d).toOption

theorem SameContext.symm (h : SameContext t t' d) : SameContext t' t d where
  shape := h.shape.symm
  factories := by
    intro factory hf usage hu
    exact (h.factories factory (h.shape.factories.mem_iff.mpr hf) usage hu).symm
  enclosing := h.enclosing.symm

theorem ofOutcome_congr {outcome outcome' : Outcome}
    (h : ∀ ds, outcome = .ok ds ↔ outcome' = .ok ds) : ofOutcome outcome = ofOutcome outcome' := by
  refine Option.ext fun files => ?_
  rw [ofOutcome_eq_some_iff, ofOutcome_eq_some_iff]
  simp only [h]

theorem subcomponentLookups_transport (h : SameContext t t' d) {ds : List Declaration}
    (hok : subcomponentLookups t d = .ok ds) : subcomponentLookups t' d = .ok ds := by
  obtain ⟨shape, scope, hshape, hscope, rfl⟩ := subcomponentLookups_ok hok
  have hfactory := SubcomponentShape.factory_mem_of_ofSubcomponent hshape
  unfold subcomponentLookups
  rw [subcomponentLookup_eq_ok_iff.mpr ⟨shape, scope,
    SubcomponentShape.ofSubcomponent_transport h.shape hshape, ?_, rfl⟩]
  · rfl
  · rw [← Scope.resolve_congr (h.factories _ hfactory)]
    exact hscope

theorem ofOutcome_subcomponentLookups_congr (h : SameContext t t' d) :
    ofOutcome (subcomponentLookups t d) = ofOutcome (subcomponentLookups t' d) :=
  ofOutcome_congr fun _ =>
    ⟨subcomponentLookups_transport h, subcomponentLookups_transport h.symm⟩

theorem ofOutcome_strayFactoryCheck_congr (h : SameContext t t' d) :
    ofOutcome (strayFactoryCheck t d) = ofOutcome (strayFactoryCheck t' d) := by
  have hsame := h.enclosing
  unfold strayFactoryCheck
  cases he : SubcomponentShape.enclosing t d <;> cases he' : SubcomponentShape.enclosing t' d <;>
    rw [he, he'] at hsame <;> first | rfl | exact nomatch hsame

theorem outcome_congr (h : SameContext t t' d) (legacy : LegacyAnnotation) :
    legacy.outcome options t d = legacy.outcome options t' d := by
  unfold LegacyAnnotation.outcome
  rw [ LegacyAnnotation.complaints_congr h.shape.reading,
    LegacyAnnotation.lookups_congr h.shape.reading]

/-- **What declarations contribute depends on how they are read, and on nothing else.** -/
theorem Processor.emissions_congr {ds : List Declaration} (h : ∀ d ∈ ds, SameContext t t' d)
    (p : Processor) : (p.channels options t).flatMap (·.emissions ds)
      = (p.channels options t').flatMap (·.emissions ds) := by
  have hone : ∀ accepts : Declaration → Bool, ∀ contribute contribute' : Declaration → Outcome,
      (∀ d ∈ ds, ofOutcome (contribute d) = ofOutcome (contribute' d)) →
        Channel.emissions ⟨accepts, contribute⟩ ds = Channel.emissions ⟨accepts, contribute'⟩ ds :=
    fun _ _ _ hsame => List.map_congr_left fun d hd => hsame d (List.mem_of_mem_filter hd)
  -- it is enough that every channel attempts the same for every declaration
  unfold Processor.channels
  cases p with
  | contributingAnnotations => rfl
  | contributesTo =>
      rw [List.flatMap_singleton, List.flatMap_singleton]
      refine hone _ _ _ fun d hd => ?_
      rw [interfaceLookups_congr (h d hd).shape.reading]
  | contributesBinding =>
      rw [List.flatMap_singleton, List.flatMap_singleton]
      refine hone _ _ _ fun d hd => ?_
      rw [bindingLookups_congr (h d hd).shape.reading]
  | contributesSubcomponent =>
      rw [List.flatMap_cons, List.flatMap_singleton, List.flatMap_cons, List.flatMap_singleton,
        hone _ _ _ fun d hd => ofOutcome_subcomponentLookups_congr (h d hd),
        hone _ _ _ fun d hd => ofOutcome_strayFactoryCheck_congr (h d hd)]
  | legacy =>
      rw [List.flatMap_cons, List.flatMap_singleton, List.flatMap_cons, List.flatMap_singleton,
        hone _ _ _ fun d hd => congrArg ofOutcome (outcome_congr (h d hd) .contributesTo),
        hone _ _ _ fun d hd => congrArg ofOutcome (outcome_congr (h d hd) .contributesBinding)]
  | mergeComponent => rfl

theorem emissions_congr {ds : List Declaration} (h : ∀ d ∈ ds, SameContext t t' d) :
    emissions options t ds = emissions options t' ds := by
  unfold emissions channels
  rw [List.flatMap_assoc, List.flatMap_assoc]
  exact List.flatMap_congr fun p _ => Processor.emissions_congr h p

/-- The emissions of two lots of declarations, in another order. -/
theorem emissions_append_perm (options : Options) (t : SymbolTable) (xs ys : List Declaration) :
    (emissions options t (xs ++ ys)).Perm (emissions options t xs ++ emissions options t ys) := by
  unfold emissions Channel.emissions
  simp only [List.filter_append, List.map_append]
  exact (List.flatMap_append_perm _ _ _).symm

theorem Attempt.written_perm {as bs : List Attempt} (h : as.Perm bs) :
    (written as).Perm (written bs) :=
  h.flatMap_right _

theorem Attempt.allSucceed_perm {as bs : List Attempt} (h : as.Perm bs) :
    AllSucceed as ↔ AllSucceed bs := by
  unfold AllSucceed
  simp only [h.mem_iff]

theorem SymbolTable.Extends.sameContext {extra : List SourceFile} (h : t'.Extends t extra)
    (d : Declaration) : SameContext t t' d where
  shape := h.sameShape d
  factories := fun factory _ => h.sameReading factory
  enclosing := by rw [h.enclosing_eq]

end Congruence

end ScopeMerge
