import ScopeMerge.Proofs.Nesting
import ScopeMerge.Proofs.Waiting

/-!
# Lookups correspond to contributions

A `Contributed` is one contribution of a source, whichever annotation makes it
one. Its `record?` says what it is recorded under: the declaration whose scope
counts, which for a subcomponent is the factory, and the name of the lookup.
`instances` lists the contributions of some declarations, each as often as it is
made: one for an annotated interface or subcomponent, one for every usage of a
binding annotation.

The processors go through the sources in the order of `instances`, so that the
lookups they write correspond to it place by place (`forall₂_emitted`). What else
a compilation generates is no lookup, and a table that grew reads the sources as
before, so the same holds of the last table and everything that was generated.

Only a factory can come from elsewhere. It is found by the parent it names, in
whatever unit it is declared, and the last section has a compilation in which it
is declared in a prior result.
-/

namespace ScopeMerge

open Vocabulary Attempt

/-! ## Lists that correspond -/

section

variable {α β γ : Type} {R : α → β → Prop}

theorem forall₂_and_right {xs : List α} {ys : List β} {p : β → Prop} (h : List.Forall₂ R xs ys)
    (hp : ∀ y ∈ ys, p y) : List.Forall₂ (fun x y => R x y ∧ p y) xs ys := by
  induction h with
  | nil => exact .nil
  | cons hxy _ ih =>
      exact .cons ⟨hxy, hp _ List.mem_cons_self⟩ (ih fun y hy => hp y (List.mem_cons_of_mem _ hy))

theorem exists_of_forall₂_left {xs : List α} {ys : List β} (h : List.Forall₂ R xs ys) {x : α}
    (hx : x ∈ xs) : ∃ y ∈ ys, R x y := by
  induction h with
  | nil => exact nomatch hx
  | cons hxy _ ih =>
      rcases List.mem_cons.mp hx with rfl | hx
      · exact ⟨_, List.mem_cons_self, hxy⟩
      · obtain ⟨y, hy, hR⟩ := ih hx
        exact ⟨y, List.mem_cons_of_mem _ hy, hR⟩

theorem exists_of_forall₂_right {xs : List α} {ys : List β} (h : List.Forall₂ R xs ys) {y : β}
    (hy : y ∈ ys) : ∃ x ∈ xs, R x y :=
  exists_of_forall₂_left (R := flip R) h.flip hy

/-- Lists that are put together from the same items correspond if they do so item by item. -/
theorem forall₂_flatMap {f : γ → List α} {g : γ → List β} {items : List γ}
    (h : ∀ item ∈ items, List.Forall₂ R (f item) (g item)) :
    List.Forall₂ R (items.flatMap f) (items.flatMap g) := by
  induction items with
  | nil => exact .nil
  | cons item items ih =>
      rw [List.flatMap_cons, List.flatMap_cons]
      exact List.rel_append (h item List.mem_cons_self)
        (ih fun other hother => h other (List.mem_cons_of_mem _ hother))

/-- Items that give nothing need not be filtered out. -/
theorem flatMap_filter_of_eq_nil {p : γ → Bool} {f : γ → List α} {items : List γ}
    (h : ∀ item ∈ items, p item = false → f item = []) :
    (items.filter p).flatMap f = items.flatMap f := by
  induction items with
  | nil => rfl
  | cons item items ih =>
      have hrest := ih fun other hother => h other (List.mem_cons_of_mem _ hother)
      rw [List.filter_cons, List.flatMap_cons]
      split
      · rw [List.flatMap_cons, hrest]
      · next hp =>
        rw [h item List.mem_cons_self (Bool.eq_false_iff.mpr hp), hrest, List.nil_append]

end

/-! ## Contributions -/

/-- One contribution of a source. -/
inductive Contributed where
  /-- An interface, by the native or by the legacy annotation. -/
  | interface (d : Declaration)
  /-- One usage of a binding annotation, native or legacy. -/
  | binding (d : Declaration) (usage : AnnotationUsage)
  /-- The factory of a contributed subcomponent. -/
  | subcomponent (d : Declaration)

namespace Contributed

/-- The declaration with the annotation. -/
def declaration : Contributed → Declaration
  | interface d => d
  | binding d _ => d
  | subcomponent d => d

/-- What a contribution is recorded under. -/
structure Record where
  /-- The declaration whose scope counts. -/
  contributor : Declaration
  /-- The name of the lookup. -/
  lookup : Name
  /-- The subcomponent around a factory. -/
  enclosing? : Option Name := none

/-- A contribution of one of some declarations. -/
def Among (ds : List Declaration) : Contributed → Prop
  | interface d =>
    d ∈ ds ∧ (d.isAnnotatedWith contributesTo = true ∨ d.isAnnotatedWith legacyContributesTo = true)
  | binding d usage =>
    d ∈ ds ∧ usage ∈ d.annotations ∧
      (usage.type = contributesBinding ∨ usage.type = legacyContributesBinding)
  | subcomponent d => d ∈ ds ∧ d.isAnnotatedWith contributesSubcomponent = true

/-- What a contribution is recorded under, if it is understood. -/
def record? (table : SymbolTable) : Contributed → Option Record
  | interface d => some { contributor := d, lookup := lookupName d.name }
  | binding d usage =>
    (Contribution.Binding.ofUsage table d usage).toOption.map fun binding =>
      { contributor := d
        lookup := Name.inPackage lookupNamespace (Contribution.Binding.lookupName d binding) }
  | subcomponent d =>
    (SubcomponentShape.soleFactory table d).toOption.map fun factory =>
      { contributor := factory, lookup := lookupName factory.name, enclosing? := some d.name }

theorem record?_subcomponent_eq_some_iff {table : SymbolTable} {d : Declaration}
    {record : Record} : (subcomponent d).record? table = some record ↔
      ∃ factory, SubcomponentShape.soleFactory table d = .ok factory ∧
        record = ⟨factory, lookupName factory.name, some d.name⟩ := by
  simp only [record?]
  cases SubcomponentShape.soleFactory table d with
  | error error => simp [Except.toOption]
  | ok factory => simp [Except.toOption, eq_comm]

/-- A contribution is recorded under its own declaration, or under the factory of a subcomponent. -/
theorem record?_cases {table : SymbolTable} {c : Contributed} {record : Record}
    (h : c.record? table = some record) :
    record.contributor = c.declaration ∨ ∃ d, c = .subcomponent d ∧
      record.enclosing? = some d.name ∧
        SubcomponentShape.soleFactory table d = .ok record.contributor := by
  cases c with
  | interface d =>
      obtain rfl := Option.some.inj h
      exact Or.inl rfl
  | binding d usage =>
      obtain ⟨binding, _, rfl⟩ := Option.map_eq_some_iff.mp h
      exact Or.inl rfl
  | subcomponent d =>
      obtain ⟨factory, hfactory, rfl⟩ := record?_subcomponent_eq_some_iff.mp h
      exact Or.inr ⟨d, rfl, rfl, hfactory⟩

theorem record?_of_extends {t t' : SymbolTable} {extra : List SourceFile}
    (h : t'.Extends t extra) {c : Contributed} {record : Record}
    (hrecord : c.record? t = some record) : c.record? t' = some record := by
  cases c with
  | interface d => exact hrecord
  | binding d usage =>
      simp only [record?] at hrecord ⊢
      rw [← Contribution.ofUsage_congr (h.sameClass usage.type)]
      exact hrecord
  | subcomponent d =>
      obtain ⟨factory, hfactory, rfl⟩ := record?_subcomponent_eq_some_iff.mp hrecord
      exact record?_subcomponent_eq_some_iff.mpr
        ⟨factory, SubcomponentShape.soleFactory_transport (h.sameShape d) hfactory, rfl⟩

/-! ### The contributions of some declarations -/

/-- One contribution for each declaration with an annotation for interfaces. -/
def interfaces (annotationType : Name) (ds : List Declaration) : List Contributed :=
  (ds.filter (·.isAnnotatedWith annotationType)).map .interface

/-- One contribution for each usage of an annotation for bindings. -/
def bindings (annotationType : Name) (ds : List Declaration) : List Contributed :=
  ds.flatMap fun d => (d.annotationsOf annotationType).map (.binding d)

/-- One contribution for each contributed subcomponent. -/
def subcomponents (ds : List Declaration) : List Contributed :=
  (ds.filter (·.isAnnotatedWith contributesSubcomponent)).map .subcomponent

/-- The contributions of some declarations, in the order in which they are recorded. -/
def instances (ds : List Declaration) : List Contributed :=
  interfaces contributesTo ds ++ bindings contributesBinding ds ++ subcomponents ds ++
    interfaces legacyContributesTo ds ++ bindings legacyContributesBinding ds

theorem declaration_mem_of_among {ds : List Declaration} {c : Contributed} (h : c.Among ds) :
    c.declaration ∈ ds := by
  cases c <;> exact h.1

theorem mem_instances_iff {ds : List Declaration} {c : Contributed} :
    c ∈ instances ds ↔ c.Among ds := by
  cases c <;>
    simp [instances, interfaces, bindings, subcomponents, Among, Declaration.annotationsOf,
      ← and_or_left]

end Contributed

namespace Session

open Contribution Contributed

variable {options : Options} {start : SymbolTable} {final : State}

/-- A contribution with its record, its scope and the lookup that was written for it. -/
structure Recorded (options : Options) (start : SymbolTable) (c : Contributed) (record : Record)
    (scope : Scope) (lookup : Declaration) : Prop where
  understood : c.record? start = some record
  resolved : Scope.resolve start record.contributor = .ok scope
  visible : start.find? record.contributor.name = some record.contributor
  isWritten : .generated lookup ∈ emitted options start
  stands : lookup.StandsFor record.contributor scope
  named : lookup.name = record.lookup
  /-- The lookup says whether it stands for a factory. -/
  subcomponent : lookup.isSubcomponentLookup = record.enclosing?.isSome
  /-- A factory is nested in its subcomponent. -/
  parent : ∀ s, record.enclosing? = some s → record.contributor.parent = some s

theorem find?_of_source (hr : Ready start) {d : Declaration} (hd : d ∈ start.localDeclarations) :
    start.find? d.name = some d := by
  obtain ⟨file, hfile, hd⟩ := List.mem_flatMap.mp hd
  exact SymbolTable.find?_of_mem hr.wellFormed (SymbolTable.localFiles_subset hfile)
    (hr.distinct file hfile) hd

/-- A factory is nested in its subcomponent and found under its name. -/
theorem find?_of_factory (hr : Ready start) (hdistinct : ∀ file ∈ start.files, file.DistinctNames)
    {d factory : Declaration} (h : factory ∈ SubcomponentShape.factories start d) :
    start.find? factory.name = some factory ∧ factory.parent = some d.name := by
  obtain ⟨⟨e, he, hparent, hfind⟩, _⟩ := SubcomponentShape.mem_factories_iff.mp h
  obtain ⟨file, hfile, hmem⟩ := SymbolTable.mem_declarations_iff.mp he
  -- no file declares the name twice, so the factory is the declaration that names its parent
  have hfound := SymbolTable.find?_of_mem hr.wellFormed hfile (hdistinct file hfile) hmem
  obtain rfl := Option.some.inj (hfound.symm.trans hfind)
  exact ⟨hfound, hparent⟩

/-- Only the lookup of a factory says that it stands for one. -/
theorem isSubcomponentLookup_of_annotations {lookup contributor : Declaration} (scope : Scope)
    (h : lookup.StandsFor contributor scope) :
    lookup.isSubcomponentLookup = decide (lookup.annotations ≠ [scopeRecord scope]) := by
  have hne : contributionScope ≠ subcomponentFactoryMarker := by decide
  unfold Declaration.isSubcomponentLookup Declaration.isAnnotatedWith
  rw [h.isLookup, Bool.true_and]
  rcases h.annotations with ha | ha <;> rw [ha] <;> simp [scopeRecord, hne]

/-- A lookup that stands for a factory was written by one processor only. -/
theorem subcomponentLookup_of_contribute {processor : Processor} {channel : Channel}
    (hchannel : channel ∈ processor.channels options start) {d e : Declaration}
    (haccepts : channel.accepts d = true) {es : List Declaration}
    (hes : channel.contribute d = .ok es) (he : e ∈ es) (hsub : e.isSubcomponentLookup = true) :
    processor = .contributesSubcomponent ∧ d.isAnnotatedWith contributesSubcomponent = true ∧
      subcomponentLookup start d = .ok e := by
  have hplain : ∀ scope, e.StandsFor d scope → e.annotations = [scopeRecord scope] →
      e.isSubcomponentLookup = false := fun scope hstands hannotations => by
    rw [isSubcomponentLookup_of_annotations scope hstands]
    exact decide_eq_false fun hne => hne hannotations
  rcases Processor.contribute_cases hchannel haccepts hes he with
    ⟨scope, rfl⟩ | ⟨scope, binding, rfl⟩ | hsubcomponent | ⟨_, rfl⟩
  · rw [hplain scope ⟨rfl, rfl, rfl, rfl, Or.inl rfl⟩ rfl] at hsub
    exact nomatch hsub
  · rw [hplain scope ⟨rfl, rfl, rfl, rfl, Or.inl rfl⟩ rfl] at hsub
    exact nomatch hsub
  · exact hsubcomponent
  · unfold Declaration.isSubcomponentLookup at hsub
    rw [(Contribution.passive_markerOf d).2] at hsub
    exact nomatch hsub

/-- What a channel makes of a source that it accepts is among what is emitted. -/
theorem exists_emitted (hg : AllSucceed (emissions options start)) {channel : Channel}
    (hmem : channel ∈ Round.channels options start) {d : Declaration}
    (hd : d ∈ start.localDeclarations) (haccepts : channel.accepts d = true) :
    ∃ es, channel.contribute d = .ok es ∧ ∀ e ∈ es, .generated e ∈ emitted options start := by
  obtain ⟨es, hes⟩ := allSucceed_emissions_iff.mp hg channel hmem d hd haccepts
  exact ⟨es, hes, fun e he =>
    mem_written_emissions.mpr ⟨channel, hmem, d, hd, haccepts, es, hes, e, he, rfl⟩⟩

/-- A lookup was written for a contribution. -/
def IsRecorded (options : Options) (start : SymbolTable) (c : Contributed)
    (lookup : Declaration) : Prop :=
  ∃ record scope, Recorded options start c record scope lookup

/-! ### What one source is recorded as -/

theorem forall₂_interfaceLookups (hr : Ready start) {d : Declaration}
    (hd : d ∈ start.localDeclarations) {annotationType : Name} {es : List Declaration}
    (hes : interfaceLookups start annotationType d = .ok es)
    (hemitted : ∀ e ∈ es, .generated e ∈ emitted options start) :
    List.Forall₂ (IsRecorded options start) [.interface d] es := by
  obtain ⟨scope, hscope, rfl⟩ := interfaceLookups_ok hes
  refine .cons ⟨⟨d, lookupName d.name, none⟩, scope, rfl, hscope, find?_of_source hr hd,
    hemitted _ List.mem_cons_self, ⟨rfl, rfl, rfl, rfl, Or.inl rfl⟩, rfl, ?_, nofun⟩ .nil
  rw [isSubcomponentLookup_of_annotations scope ⟨rfl, rfl, rfl, rfl, Or.inl rfl⟩]
  exact decide_eq_false fun h => h rfl

theorem forall₂_bindingLookups (hr : Ready start) {d : Declaration}
    (hd : d ∈ start.localDeclarations) {annotationType : Name} {es : List Declaration}
    (hes : bindingLookups start annotationType d = .ok es)
    (hemitted : ∀ e ∈ es, .generated e ∈ emitted options start) :
    List.Forall₂ (IsRecorded options start) ((d.annotationsOf annotationType).map (.binding d))
      es := by
  obtain ⟨scope, bindings, hscope, hbindings, rfl⟩ := bindingLookups_ok hes
  rw [List.forall₂_map_left_iff, List.forall₂_map_right_iff]
  have hcollected := forall₂_and_right (forall₂_of_collect hbindings) fun binding hb =>
    hemitted _ (List.mem_map_of_mem hb)
  refine hcollected.imp ?_
  intro usage binding h
  obtain ⟨hof, hwritten⟩ := h
  refine ⟨⟨d, Name.inPackage lookupNamespace (Binding.lookupName d binding), none⟩, scope, ?_,
    hscope, find?_of_source hr hd, hwritten, ⟨rfl, rfl, rfl, rfl, Or.inl rfl⟩, rfl, ?_, nofun⟩
  · simp only [record?]
    rw [hof]
    rfl
  · rw [isSubcomponentLookup_of_annotations scope ⟨rfl, rfl, rfl, rfl, Or.inl rfl⟩]
    exact decide_eq_false fun h => h rfl

theorem forall₂_subcomponentLookups (hr : Ready start)
    (hdistinct : ∀ file ∈ start.files, file.DistinctNames) {d : Declaration}
    {es : List Declaration} (hes : subcomponentLookups start d = .ok es)
    (hemitted : ∀ e ∈ es, .generated e ∈ emitted options start) :
    List.Forall₂ (IsRecorded options start) [.subcomponent d] es := by
  obtain ⟨shape, scope, hshape, hscope, rfl⟩ := subcomponentLookups_ok hes
  obtain ⟨hfind, hparent⟩ := find?_of_factory hr hdistinct
    (SubcomponentShape.factory_mem_of_ofSubcomponent hshape)
  refine .cons ⟨⟨shape.factory, lookupName shape.factory.name, some d.name⟩, scope, ?_, hscope,
    hfind, hemitted _ List.mem_cons_self, ⟨rfl, rfl, rfl, rfl, Or.inr rfl⟩, rfl, ?_, ?_⟩ .nil
  · exact record?_subcomponent_eq_some_iff.mpr ⟨_, SubcomponentShape.soleFactory_eq_ok_iff.mpr
      (SubcomponentShape.mem_factories_of_ofSubcomponent hshape), rfl⟩
  · rw [isSubcomponentLookup_of_annotations scope ⟨rfl, rfl, rfl, rfl, Or.inr rfl⟩]
    exact decide_eq_true (by simp)
  · intro s hs
    rw [← Option.some.inj hs]
    exact hparent

/-! ### What all sources are recorded as -/

/-- The lookups in some files. -/
def lookupsIn (files : List SourceFile) : List Declaration :=
  (files.flatMap (·.declarations)).filter (·.isLookup)

theorem lookupsIn_append (files others : List SourceFile) :
    lookupsIn (files ++ others) = lookupsIn files ++ lookupsIn others := by
  unfold lookupsIn
  rw [List.flatMap_append, List.filter_append]

/-- The lookups that a channel gives are those it gives for each declaration. -/
theorem lookupsIn_emissions (channel : Channel) (ds : List Declaration) :
    lookupsIn (written (channel.emissions ds)) = (ds.filter channel.accepts).flatMap fun d =>
      ((channel.contribute d).toOption.getD []).filter (·.isLookup) := by
  unfold lookupsIn written Channel.emissions
  rw [List.flatMap_map, List.flatMap_assoc, List.filter_flatMap]
  refine List.flatMap_congr fun d _ => ?_
  unfold ofOutcome
  cases channel.contribute d with
  | error error => rfl
  | ok es => simp [Except.toOption, List.flatMap_map, SourceFile.generated]

/-- A channel that gives no lookups. -/
theorem lookupsIn_emissions_eq_nil {channel : Channel}
    (h : ∀ d es, channel.contribute d = .ok es → es.filter (·.isLookup) = [])
    (ds : List Declaration) : lookupsIn (written (channel.emissions ds)) = [] := by
  rw [lookupsIn_emissions, List.flatMap_eq_nil_iff]
  intro d _
  cases hes : channel.contribute d with
  | error error => rfl
  | ok es => exact h d es hes

variable (hr : Ready start) (hg : AllSucceed (emissions options start))

include hg in
/-- A channel that gives for each source the lookups of some contributions, and nothing else. -/
theorem forall₂_channel {channel : Channel} (hmem : channel ∈ Round.channels options start)
    {own : Declaration → List Contributed}
    (h : ∀ d ∈ start.localDeclarations, ∀ es, channel.contribute d = .ok es →
      (∀ e ∈ es, .generated e ∈ emitted options start) →
      List.Forall₂ (IsRecorded options start) (own d) es) :
    List.Forall₂ (IsRecorded options start)
      ((start.localDeclarations.filter channel.accepts).flatMap own)
      (lookupsIn (written (channel.emissions start.localDeclarations))) := by
  rw [lookupsIn_emissions]
  refine forall₂_flatMap fun d hd => ?_
  obtain ⟨hd, haccepts⟩ := List.mem_filter.mp hd
  obtain ⟨es, hes, hemitted⟩ := exists_emitted hg hmem hd haccepts
  have hown := h d hd es hes hemitted
  have hlookups : es.filter (·.isLookup) = es := by
    refine List.filter_eq_self.mpr fun e he => ?_
    obtain ⟨_, _, _, _, hrecorded⟩ := exists_of_forall₂_right hown he
    exact hrecorded.stands.isLookup
  rw [hes, Except.toOption, Option.getD_some, hlookups]
  exact hown

/-- The contributions that a processor records. -/
def recordedBy (ds : List Declaration) : Processor → List Contributed
  | .contributingAnnotations => []
  | .contributesTo => interfaces contributesTo ds
  | .contributesBinding => bindings contributesBinding ds
  | .contributesSubcomponent => subcomponents ds
  | .legacy => interfaces legacyContributesTo ds ++ bindings legacyContributesBinding ds
  | .mergeComponent => []

theorem instances_eq (ds : List Declaration) :
    instances ds = Round.recorders.flatMap (recordedBy ds) := by
  simp [instances, Round.recorders, recordedBy]

theorem recording_eq
    (hon : ∀ processor ∈ Processor.all, options.isDisabled processor.id = false) :
    Round.recording options = Round.recorders := by
  have hall : ∀ processor ∈ Round.recorders, processor ∈ Processor.all := by decide
  refine List.filter_eq_self.mpr fun processor hp => ?_
  rw [hon processor (hall processor hp)]
  rfl

/-- What is emitted, processor by processor. -/
theorem emitted_eq : emitted options start = (Round.recording options).flatMap fun processor =>
    written ((processor.channels options start).flatMap (·.emissions start.localDeclarations)) := by
  unfold emitted emissions Round.emissions Round.channels written
  rw [List.flatMap_assoc, List.flatMap_assoc]
  exact List.flatMap_congr fun processor _ => List.flatMap_assoc.symm

include hr hg in
/-- A channel for interfaces. -/
theorem forall₂_interfaces {annotationType : Name} {contribute : Declaration → Outcome}
    (hmem : ⟨(·.isAnnotatedWith annotationType), contribute⟩ ∈ Round.channels options start)
    (h : ∀ d es, contribute d = .ok es → interfaceLookups start annotationType d = .ok es) :
    List.Forall₂ (IsRecorded options start) (interfaces annotationType start.localDeclarations)
      (lookupsIn (written (Channel.emissions ⟨(·.isAnnotatedWith annotationType), contribute⟩
        start.localDeclarations))) := by
  unfold interfaces
  rw [List.map_eq_flatMap]
  exact forall₂_channel hg hmem fun d hd es hes hemitted =>
    forall₂_interfaceLookups hr hd (h d es hes) hemitted

include hr hg in
/-- A channel for bindings. -/
theorem forall₂_bindings {annotationType : Name} {contribute : Declaration → Outcome}
    (hmem : ⟨(·.isAnnotatedWith annotationType), contribute⟩ ∈ Round.channels options start)
    (h : ∀ d es, contribute d = .ok es → bindingLookups start annotationType d = .ok es) :
    List.Forall₂ (IsRecorded options start) (bindings annotationType start.localDeclarations)
      (lookupsIn (written (Channel.emissions ⟨(·.isAnnotatedWith annotationType), contribute⟩
        start.localDeclarations))) := by
  have hunused : ∀ d ∈ start.localDeclarations, d.isAnnotatedWith annotationType = false →
      (d.annotationsOf annotationType).map (Contributed.binding d) = [] := by
    intro d _ hnone
    rw [List.map_eq_nil_iff, Declaration.annotationsOf, List.filter_eq_nil_iff]
    intro usage hu
    simpa using Declaration.isAnnotatedWith_eq_false_iff.mp hnone usage hu
  unfold bindings
  rw [← flatMap_filter_of_eq_nil hunused]
  exact forall₂_channel hg hmem fun d hd es hes hemitted =>
    forall₂_bindingLookups hr hd (h d es hes) hemitted

include hr hg in
/-- **The lookups that a processor writes correspond to the contributions it records.** -/
theorem forall₂_recordedBy (hdistinct : ∀ file ∈ start.files, file.DistinctNames)
    {processor : Processor} (hp : processor ∈ Round.recording options) :
    List.Forall₂ (IsRecorded options start) (recordedBy start.localDeclarations processor)
      (lookupsIn (written ((processor.channels options start).flatMap
        (·.emissions start.localDeclarations)))) := by
  have hmem : ∀ channel ∈ processor.channels options start,
      channel ∈ Round.channels options start := fun channel hchannel =>
    List.mem_flatMap.mpr ⟨processor, hp, hchannel⟩
  -- one case a processor, and in it one step a channel
  unfold Processor.channels at hmem ⊢
  cases processor with
  | contributingAnnotations =>
      rw [List.flatMap_singleton, lookupsIn_emissions_eq_nil]
      · exact .nil
      · intro d es hes
        rw [Contribution.markers_ok hes, List.filter_singleton,
          (Contribution.passive_markerOf d).2]
        rfl
  | contributesTo =>
      rw [List.flatMap_singleton]
      exact forall₂_interfaces hr hg (hmem _ List.mem_cons_self) fun _ _ hes => hes
  | contributesBinding =>
      rw [List.flatMap_singleton]
      exact forall₂_bindings hr hg (hmem _ List.mem_cons_self) fun _ _ hes => hes
  | contributesSubcomponent =>
      have hstray : ∀ accepts, lookupsIn (written (Channel.emissions
          ⟨accepts, strayFactoryCheck start⟩ start.localDeclarations)) = [] := fun accepts =>
        lookupsIn_emissions_eq_nil (fun d es hes => by rw [strayFactoryCheck_ok hes]; rfl) _
      rw [List.flatMap_cons, List.flatMap_singleton, written_append, lookupsIn_append, hstray,
        List.append_nil]
      unfold recordedBy subcomponents
      rw [List.map_eq_flatMap]
      exact forall₂_channel hg (hmem _ List.mem_cons_self) fun d _ es hes hemitted =>
        forall₂_subcomponentLookups hr hdistinct hes hemitted
  | legacy =>
      rw [List.flatMap_cons, List.flatMap_singleton, written_append, lookupsIn_append]
      exact List.rel_append
        (forall₂_interfaces hr hg (hmem _ List.mem_cons_self)
          fun _ _ => LegacyAnnotation.lookups_of_outcome)
        (forall₂_bindings hr hg (hmem _ (List.mem_cons_of_mem _ List.mem_cons_self))
          fun _ _ => LegacyAnnotation.lookups_of_outcome)
  | mergeComponent => exact .nil

include hr hg in
/-- **The lookups that are written correspond to the contributions of the sources.** -/
theorem forall₂_emitted (hdistinct : ∀ file ∈ start.files, file.DistinctNames)
    (hon : ∀ processor ∈ Processor.all, options.isDisabled processor.id = false) :
    List.Forall₂ (IsRecorded options start) (instances start.localDeclarations)
      (lookupsIn (emitted options start)) := by
  have hlookups : lookupsIn (emitted options start) =
      (Round.recording options).flatMap fun processor =>
        lookupsIn (written ((processor.channels options start).flatMap
          (·.emissions start.localDeclarations))) := by
    rw [emitted_eq]
    unfold lookupsIn
    rw [List.flatMap_assoc, List.filter_flatMap]
  rw [hlookups, instances_eq, ← recording_eq hon]
  exact forall₂_flatMap fun processor hp => forall₂_recordedBy hr hg hdistinct hp

/-! ## Whole compilations -/

/-- The lookups that a compilation generated. -/
def State.generatedLookups (state : State) : List Declaration :=
  lookupsIn state.workspace.output.files

/-- A lookup is the record of a contribution. It has the name that the contribution is recorded
under, its origin is the declaration whose scope counts, and the one scope written on it is the
scope of this declaration. -/
def IsRecordOf (table : SymbolTable) (c : Contributed) (lookup : Declaration) : Prop :=
  ∃ record scope, c.record? table = some record ∧ lookup.name = record.lookup ∧
    lookup.isSubcomponentLookup = record.enclosing?.isSome ∧
    table.find? record.contributor.name = some record.contributor ∧
    lookup.origin = some record.contributor.name ∧
    Scope.resolve table record.contributor = .ok scope ∧
    lookup.annotationsOf contributionScope = [scopeRecord scope]

/-- Whatever a compilation generates beside what it emits is no lookup. -/
theorem Succeeded.generatedLookups_eq (h : Succeeded options start final) :
    final.generatedLookups = lookupsIn (emitted options start) := by
  have hmerged : lookupsIn (merged options start) = [] := by
    refine List.filter_eq_nil_iff.mpr fun d hd => ?_
    obtain ⟨file, hfile, hd⟩ := List.mem_flatMap.mp hd
    rw [(passive_of_merged h.ready hfile d hd).2]
    exact Bool.false_ne_true
  rw [State.generatedLookups, h.concluded.files, lookupsIn_append, hmerged, List.append_nil]

theorem IsRecorded.isRecordOf {extra : List SourceFile} {table : SymbolTable}
    (hextends : table.Extends start extra) {c : Contributed} {lookup : Declaration}
    (h : IsRecorded options start c lookup) : IsRecordOf table c lookup := by
  obtain ⟨record, scope, hrecorded⟩ := h
  refine ⟨record, scope, record?_of_extends hextends hrecorded.understood, hrecorded.named,
    hrecorded.subcomponent, hextends.find?_mono hrecorded.visible, hrecorded.stands.origin, ?_, ?_⟩
  · rw [← Scope.resolve_congr (hextends.sameReading _)]
    exact hrecorded.resolved
  · have hne : subcomponentFactoryMarker ≠ contributionScope := by decide
    unfold Declaration.annotationsOf
    rcases hrecorded.stands.annotations with ha | ha <;> rw [ha] <;> simp [scopeRecord, hne]

theorem Succeeded.forall₂_generatedLookups (h : Succeeded options start final)
    (hdistinct : ∀ file ∈ start.files, file.DistinctNames)
    (hon : ∀ processor ∈ Processor.all, options.isDisabled processor.id = false) :
    List.Forall₂ (IsRecordOf final.table) (instances start.localDeclarations)
      final.generatedLookups := by
  rw [h.generatedLookups_eq]
  exact (forall₂_emitted h.ready h.goesThrough.emits hdistinct hon).imp fun _ _ hrecorded =>
    hrecorded.isRecordOf h.extends_start

/-- No two lookups share a name. -/
theorem Succeeded.nodup_generatedLookups (h : Succeeded options start final) :
    (final.generatedLookups.map (·.name)).Nodup := by
  rw [h.generatedLookups_eq]
  have hfits := (SymbolTable.wellFormed_append_iff.mp
    (wellFormed_append_emitted h.goesThrough.fits)).2.1
  have hnodup := SourceFile.nodup_names_flatMap hfits (fun _ _ => List.Subset.refl _)
    fun file hfile => emitted_distinct hfile
  exact (List.filter_sublist.map _).nodup hnodup

/-- A declaration to be compiled is not named like one of a prior result. -/
theorem name_ne_of_dependency {inputs : List Input} (hw : (loadedTable inputs).WellFormed)
    {d e : Declaration} (hd : d ∈ sourceDeclarations inputs)
    (he : e ∈ dependencyDeclarations inputs) : d.name ≠ e.name := by
  unfold SymbolTable.WellFormed at hw
  rw [files_loadedTable, List.pairwise_append] at hw
  have hapart := (inputFiles_perm inputs).symm.pairwise hw.2.1 fun h => h.symm
  obtain ⟨file, hfile, hd⟩ := List.mem_flatMap.mp hd
  obtain ⟨other, hother, he⟩ := List.mem_flatMap.mp he
  exact fun hname =>
    ((List.pairwise_append.mp hapart).2.2 other hother file hfile).2 e he d hd hname.symm

/-- **Lookups correspond one to one to contributions.** In a successful compilation with all
processors on, the generated lookups correspond place by place to the contributions of the sources:
each lookup is the record of its contribution, with the contributing declaration, or the factory of
a contributed subcomponent, as its origin and the scope of the origin as its one scope. No two of
them share a name. The origin of a lookup is declared in a prior result only when it is the factory
of a subcomponent among the sources, whose parent it names. -/
theorem lookups_correspond_to_contributions {inputs : List Input} {n : Nat}
    (hdistinct : ∀ file ∈ inputFiles inputs, file.DistinctNames)
    (hon : ∀ processor ∈ Processor.all, options.isDisabled processor.id = false)
    (h : compile options n inputs = .ok final) :
    List.Forall₂ (IsRecordOf final.table) (instances (sourceDeclarations inputs))
        final.generatedLookups ∧
      (final.generatedLookups.map (·.name)).Nodup ∧
      ∀ e ∈ dependencyDeclarations inputs, ∀ lookup ∈ final.generatedLookups,
        lookup.origin = some e.name →
          ∃ d ∈ sourceDeclarations inputs, d.isAnnotatedWith contributesSubcomponent = true ∧
            e.parent = some d.name ∧ SubcomponentShape.soleFactory final.table d = .ok e := by
  have hs := succeeded_of_compile hdistinct h
  have hvisible := distinctNames_loadedTable hdistinct
  have hall := hs.forall₂_generatedLookups hvisible hon
  rw [localDeclarations_loadedTable] at hall
  refine ⟨hall, hs.nodup_generatedLookups, fun e he lookup hlookup horigin => ?_⟩
  rw [hs.generatedLookups_eq] at hlookup
  obtain ⟨c, hc, record, scope, hrecorded⟩ := exists_of_forall₂_right
    (forall₂_emitted hs.ready hs.goesThrough.emits hvisible hon) hlookup
  rw [localDeclarations_loadedTable] at hc
  have hamong := mem_instances_iff.mp hc
  have hname : record.contributor.name = e.name :=
    Option.some.inj (hrecorded.stands.origin.symm.trans horigin)
  rcases record?_cases hrecorded.understood with hown | ⟨d, rfl, henclosing, hfactory⟩
  · rw [hown] at hname
    exact absurd hname
      (name_ne_of_dependency hs.ready.wellFormed (declaration_mem_of_among hamong) he)
  · obtain ⟨file, hfile, hmem⟩ := List.mem_flatMap.mp he
    have hloaded : file ∈ (loadedTable inputs).files := by
      rw [files_loadedTable]
      exact List.mem_append_right _
        ((inputFiles_perm inputs).subset (List.mem_append_left _ hfile))
    have hfound := SymbolTable.find?_of_mem hs.ready.wellFormed hloaded (hvisible file hloaded) hmem
    rw [← hname, hrecorded.visible] at hfound
    obtain rfl := Option.some.inj hfound
    exact ⟨d, hamong.1, hamong.2, hrecorded.parent _ henclosing,
      SubcomponentShape.soleFactory_transport (hs.extends_start.sameShape d) hfactory⟩

end Session

/-! ## A factory from a prior result -/

namespace Sample

/-- A subcomponent whose factory was compiled before it, and the interface of the library. -/
def borrowed : List Session.Input :=
  [.dependency { files := [{ id := ⟨"Factory.kt"⟩, declarations := [loginFactory] }] },
    .sources { files := [{ id := ⟨"Login.kt"⟩, declarations := [login] }] }, .sources library]

theorem distinct_borrowed : ∀ file ∈ Session.inputFiles borrowed, file.DistinctNames := by
  decide

theorem borrowed_compiles : ∃ final, Session.compile {} 4 borrowed = .ok final := by
  have hgoes : Session.requests {} (Session.loadedTable borrowed) = [] ∧
      AllSucceed (Session.emissions {} (Session.loadedTable borrowed)) ∧
      ((Session.loadedTable borrowed).append
        (Session.emitted {} (Session.loadedTable borrowed)) true).WellFormed := by
    decide
  exact (Session.compile_ok_iff distinct_borrowed (Nat.le_refl 4)).mpr
    (Session.goesThrough_of_no_requests hgoes.1 hgoes.2.1 hgoes.2.2)

theorem instances_borrowed : Contributed.instances (Session.sourceDeclarations borrowed) =
    [.interface greeter, .subcomponent login] := rfl

theorem soleFactory_login :
    SubcomponentShape.soleFactory (Session.loadedTable borrowed) login = .ok loginFactory := by
  decide

end Sample

namespace Session

open Contributed

/-- The two contributions of the sample have two lookups, and the one of the subcomponent stands
for a factory that no source declares. -/
theorem borrowed_lookups_correspond : ∃ final, compile {} 4 Sample.borrowed = .ok final ∧
    ∃ interfaceLookup factoryLookup,
      final.generatedLookups = [interfaceLookup, factoryLookup] ∧
        interfaceLookup.origin = some Sample.greeter.name ∧
        factoryLookup.origin = some Sample.loginFactory.name := by
  obtain ⟨final, hfinal⟩ := Sample.borrowed_compiles
  have hextends := (succeeded_of_compile Sample.distinct_borrowed hfinal).extends_start
  obtain ⟨hall, _, _⟩ :=
    lookups_correspond_to_contributions Sample.distinct_borrowed (by decide) hfinal
  rw [Sample.instances_borrowed] at hall
  obtain ⟨interfaceLookup, rest, hinterface, hrest, hlookups⟩ :=
    List.forall₂_cons_left_iff.mp hall
  obtain ⟨factoryLookup, _, hfactory, hnone, rfl⟩ := List.forall₂_cons_left_iff.mp hrest
  obtain rfl := List.forall₂_nil_left_iff.mp hnone
  refine ⟨final, hfinal, interfaceLookup, factoryLookup, hlookups, ?_, ?_⟩
  · obtain ⟨record, _, hrecord, _, _, _, horigin, _⟩ := hinterface
    obtain rfl := Option.some.inj hrecord
    exact horigin
  · obtain ⟨record, _, hrecord, _, _, _, horigin, _⟩ := hfactory
    obtain ⟨factory, hsole, rfl⟩ := record?_subcomponent_eq_some_iff.mp hrecord
    rw [SubcomponentShape.soleFactory_transport (hextends.sameShape _) Sample.soleFactory_login]
      at hsole
    obtain rfl := Except.ok.inj hsole
    exact horigin

/-- **A factory may come from a prior result.** The lookup of the subcomponent has an origin that
no source declares. -/
theorem borrowed_factory_has_lookup :
    (∀ file ∈ inputFiles Sample.borrowed, file.DistinctNames) ∧
      (∀ processor ∈ Processor.all, Options.isDisabled {} processor.id = false) ∧
      ∃ final, compile {} 4 Sample.borrowed = .ok final ∧
        ∃ lookup ∈ final.generatedLookups, ∃ e ∈ dependencyDeclarations Sample.borrowed,
          lookup.origin = some e.name := by
  obtain ⟨final, hfinal⟩ := Sample.borrowed_compiles
  refine ⟨Sample.distinct_borrowed, by decide, final, hfinal, ?_⟩
  have hs := succeeded_of_compile Sample.distinct_borrowed hfinal
  have hall := forall₂_emitted hs.ready hs.goesThrough.emits
    (distinctNames_loadedTable Sample.distinct_borrowed) (by decide)
  rw [localDeclarations_loadedTable, Sample.instances_borrowed] at hall
  obtain ⟨lookup, hlookup, record, scope, hrecorded⟩ := exists_of_forall₂_left hall
    (List.mem_cons_of_mem _ List.mem_cons_self)
  obtain ⟨factory, hfactory, rfl⟩ := record?_subcomponent_eq_some_iff.mp hrecorded.understood
  rw [Sample.soleFactory_login] at hfactory
  obtain rfl := Except.ok.inj hfactory
  exact ⟨lookup, by rwa [hs.generatedLookups_eq], Sample.loginFactory, List.mem_cons_self,
    hrecorded.stands.origin⟩

end Session

end ScopeMerge
