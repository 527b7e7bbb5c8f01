import ScopeMerge.Proofs.Plain

/-!
# No contribution comes too late

A merge request is answered from the table of one round. What is added later
could be missing from the answer, so the merge sweep puts its requests off while
contributions still arrive. The reason that this is enough:

* whatever a recording processor turns into a lookup carries one of the
  annotations that need no registration, so a first round that does not wait has
  no lookup to write (`marker_of_not_waits`);
* a first round that does wait writes every lookup there will ever be, and the
  requests are answered later.

So the table that the requests are answered from differs from the last one by
markers, aggregates and final components, and none of these is anything to a
merge. The last theorem says it of every round.
-/

namespace ScopeMerge

open Vocabulary Attempt

theorem SymbolTable.initial_not_lookup : ∀ d ∈ initial.declarations, d.isLookup = false := by
  decide

/-- A declaration that tells the registry of a custom annotation. -/
structure Declaration.Registers (d : Declaration) (annotationType : Name) : Prop where
  package : d.package = extendNamespace
  topLevel : d.parent = none
  kind : d.kind = .property
  origin : d.origin = some annotationType

namespace Registry

variable {options : Options} {table : SymbolTable} {n : Name}

theorem contains_assemble_iff : (assemble options table).contains n = true ↔
    n ∈ builtin ++ legacy options ++ options.contributingAnnotations ++ marked table
      ++ fresh table := by
  unfold contains assemble
  rw [List.contains_iff_mem, List.mem_eraseDups]

theorem contains_of_unregistered (h : n ∈ builtin ++ legacy options) :
    (assemble options table).contains n = true :=
  contains_assemble_iff.mpr
    (List.mem_append_left _ (List.mem_append_left _ (List.mem_append_left _ h)))

theorem mem_marked_iff : n ∈ marked table ↔ ∃ d ∈ table.visible, d.Registers n := by
  unfold marked SymbolTable.inNamespace
  simp only [List.mem_filterMap, List.mem_filter, List.mem_mergeSort, decide_eq_true_eq]
  refine ⟨?_, ?_⟩
  · rintro ⟨d, ⟨⟨hvisible, hpackage, hparent⟩, hkind⟩, horigin⟩
    exact ⟨d, hvisible, hpackage, hparent, hkind, horigin⟩
  · rintro ⟨d, hvisible, h⟩
    exact ⟨d, ⟨⟨hvisible, h.package, h.topLevel⟩, h.kind⟩, h.origin⟩

end Registry

namespace Session

variable {options : Options} {start : SymbolTable} {final : State}

/-! ## What the first round waits for -/

/-- The first round sees whatever the sources declare, and nothing else. -/
theorem mem_introduced_iff (hr : Ready start) {d : Declaration} :
    d ∈ (start.beginRound []).introducedDeclarations ↔ d ∈ start.localDeclarations := by
  have hfound : ∀ file ∈ start.localFiles, ∀ e ∈ file.declarations,
      start.find? e.name = some e := fun file hfile e he =>
    SymbolTable.find?_of_mem hr.wellFormed (SymbolTable.localFiles_subset hfile)
      (hr.distinct file hfile) he
  rw [SymbolTable.mem_introducedDeclarations_iff]
  refine ⟨?_, ?_⟩
  · intro h
    obtain ⟨file, hfile, hid, e, he, hfind⟩ := h
    have hin : file.id ∈ start.incoming := hid
    rw [hr.incoming] at hin
    obtain ⟨source, hsource, hsame⟩ := List.mem_map.mp hin
    -- a new file is a source, since identities are taken once
    obtain rfl := SymbolTable.eq_of_id_eq hr.wellFormed (SymbolTable.localFiles_subset hsource)
      hfile hsame
    obtain rfl := Option.some.inj ((hfound source hsource e he).symm.trans hfind)
    exact List.mem_flatMap.mpr ⟨source, hsource, he⟩
  · intro h
    obtain ⟨file, hfile, hd⟩ := List.mem_flatMap.mp h
    have hin : file.id ∈ start.incoming := by
      rw [hr.incoming]
      exact List.mem_map_of_mem hfile
    exact ⟨file, SymbolTable.localFiles_subset hfile, hin, d, hd, hfound file hfile d hd⟩

/-- **The first round waits exactly for what carries a registered annotation.** -/
theorem waits_iff (hr : Ready start) :
    waits options start = true ↔ ∃ d ∈ start.localDeclarations, ∃ usage ∈ d.annotations,
      (Registry.assemble options (start.beginRound [])).contains usage.type = true := by
  unfold waits Round.waits Merge.hasNewContributions Registry.isContribution
  simp only [List.any_eq_true, mem_introduced_iff hr]

/-- **A contribution by an annotation that needs no registration makes the first round wait.** -/
theorem waits_of_contribution (hr : Ready start) {d : Declaration}
    (hd : d ∈ start.localDeclarations) {n : Name}
    (hn : n ∈ Registry.builtin ++ Registry.legacy options)
    (hannotated : d.isAnnotatedWith n = true) : waits options start = true := by
  obtain ⟨usage, hu, htype⟩ := List.any_eq_true.mp hannotated
  refine (waits_iff hr).mpr ⟨d, hd, usage, hu, ?_⟩
  rw [of_decide_eq_true htype]
  exact Registry.contains_of_unregistered hn

/-- A first round that does not wait writes nothing but markers. -/
theorem marker_of_not_waits (hr : Ready start) (hwaits : waits options start = false)
    {file : SourceFile} (h : file ∈ emitted options start) :
    ∃ d ∈ start.localDeclarations, file = .generated (Contribution.markerOf d) ∧
      d.isAnnotatedWith contributingAnnotation = true := by
  obtain ⟨e, rfl, d, hd, hcases⟩ := emitted_cases h
  rcases hcases with ⟨_, _, _, _, n, hn, hannotated⟩ | ⟨rfl, hannotated, _⟩
  · rw [waits_of_contribution hr hd hn hannotated] at hwaits
    exact nomatch hwaits
  · exact ⟨d, hd, rfl, hannotated⟩

/-! ## What is added after the merge requests are answered -/

/-- The files that are added to the table after it was merged from. -/
def addedLater (options : Options) (start : SymbolTable) : List SourceFile :=
  if waits options start then merged options start
  else emitted options start ++ merged options start

theorem seesBuiltins_mergeTable (hr : Ready start) :
    (mergeTable options start).SeesBuiltins := by
  unfold mergeTable
  split
  · exact hr.builtins.append _ _
  · exact hr.builtins

theorem passive_of_merged (hr : Ready start) {file : SourceFile}
    (h : file ∈ merged options start) : ∀ d ∈ file.declarations, d.Passive := by
  obtain ⟨r, _, hfinalize⟩ := exists_request_of_merged h
  exact Merge.passive_of_finalize (seesBuiltins_mergeTable hr) hfinalize

/-- **Nothing that is added later is anything to a merge.** -/
theorem passive_of_addedLater (hr : Ready start) {file : SourceFile}
    (h : file ∈ addedLater options start) : ∀ d ∈ file.declarations, d.Passive := by
  unfold addedLater at h
  cases hwaits : waits options start with
  | true =>
      rw [hwaits, if_pos rfl] at h
      exact passive_of_merged hr h
  | false =>
      rw [hwaits, if_neg (by simp)] at h
      rcases List.mem_append.mp h with h | h
      · obtain ⟨d, _, rfl, _⟩ := marker_of_not_waits hr hwaits h
        intro e he
        rw [List.mem_singleton.mp he]
        exact Contribution.passive_markerOf d
      · exact passive_of_merged hr h

theorem Succeeded.extends_mergeTable (h : Succeeded options start final) :
    final.table.Extends (mergeTable options start) (addedLater options start) where
  files := by
    rw [h.files]
    unfold mergeTable addedLater
    split
    · rw [SymbolTable.files_append, List.append_assoc]
    · exact List.Perm.refl _
  wellFormed := h.underway.wellFormed
  inert := fun _ hf d hd => (passive_of_addedLater h.ready hf d hd).1

theorem Succeeded.lookups_eq (h : Succeeded options start final) :
    Merge.lookups (mergeTable options start) = Merge.lookups final.table :=
  h.extends_mergeTable.lookups_eq fun _ hf d hd => (passive_of_addedLater h.ready hf d hd).2

/-- The origin of a lookup that was emitted is declared before anything is generated. -/
theorem origin_of_emitted {file : SourceFile} (h : file ∈ emitted options start)
    {lookup : Declaration} (hmem : lookup ∈ file.declarations) (hlookup : lookup.isLookup = true)
    {o : Name} (ho : lookup.origin = some o) : ∃ e ∈ start.declarations, e.name = o := by
  obtain ⟨found, rfl, d, hd, hcases⟩ := emitted_cases h
  obtain rfl := List.mem_singleton.mp hmem
  rcases hcases with ⟨contributor, _, hstands, hcontributor, _⟩ | ⟨rfl, _⟩
  · rw [hstands.origin] at ho
    obtain rfl := Option.some.inj ho
    refine ⟨contributor, ?_, rfl⟩
    rcases hcontributor with rfl | hfactory
    · exact SymbolTable.localDeclarations_subset hd
    · obtain ⟨e, _, hfind⟩ := List.mem_filterMap.mp (List.mem_of_mem_filter hfactory)
      exact (SymbolTable.find?_eq_some hfind).1
  · rw [(Contribution.passive_markerOf d).2] at hlookup
    exact nomatch hlookup

/-- Every lookup among the inputs stands for something that is among them too. -/
def OriginsDeclared (start : SymbolTable) : Prop :=
  ∀ d ∈ start.declarations, d.isLookup = true → ∀ o, d.origin = some o →
    ∃ e ∈ start.declarations, e.name = o

/-- And so does every lookup among what is emitted. -/
theorem OriginsDeclared.append_emitted (h : OriginsDeclared start) {lookup : Declaration}
    (hmem : lookup ∈ (start.append (emitted options start) true).declarations)
    (hlookup : lookup.isLookup = true) {o : Name} (ho : lookup.origin = some o) :
    ∃ e ∈ start.declarations, e.name = o := by
  rcases SymbolTable.mem_declarations_append.mp hmem with hmem | ⟨file, hfile, hmem⟩
  · exact h lookup hmem hlookup o ho
  · exact origin_of_emitted hfile hmem hlookup ho

/-- **The last table is the same to a merge as the one that was merged from**, provided that every
lookup among the inputs stands for something that is among them too. -/
theorem Succeeded.agrees (h : Succeeded options start final) (horigins : OriginsDeclared start) :
    Agrees (mergeTable options start) final.table := by
  refine h.extends_mergeTable.agrees
    (fun _ hf d hd => (passive_of_addedLater h.ready hf d hd).2) ?_
  intro d hd hlookup o ho file hfile e he
  have hinputs := mergeTable_extends (wellFormed_append_emitted h.goesThrough.fits)
  have horigin : ∃ x ∈ start.declarations, x.name = o := by
    unfold mergeTable at hd
    split at hd
    · exact horigins.append_emitted hd hlookup ho
    · exact horigins d hd hlookup o ho
  -- a generated file does not declare a name that was there before
  obtain ⟨x, hx, rfl⟩ := horigin
  exact (h.extends_mergeTable.apart (hinputs.declarations_subset hx) hfile he).symm

/-! ## Every round -/

/-- **Once a merge request was looked at in earnest, the lookups are complete.** -/
theorem Succeeded.lookups_of_reaches (h : Succeeded options start final) {state : State}
    (hreaches : State.Reaches options { table := start } state) {progress : Progress}
    (hstep : state.step options = .ok progress)
    (hprocessed : (State.reached progress).workspace.processed ≠ {}) :
    Merge.lookups state.table = Merge.lookups final.table := by
  have hsame : ∀ {t : SymbolTable}, t.WellFormed → t.files = (mergeTable options start).files →
      Merge.lookups t = Merge.lookups final.table := fun hw hfiles =>
    (SymbolTable.agrees_of_files hfiles hw).lookups.symm.trans h.lookups_eq
  have hcases := State.underway_of_reaches h.ready hreaches
  rcases hcases with rfl | hunderway
  · -- in the first round requests are only processed if nothing is waited for
    have hnext : State.reached progress = State.next options { table := start } := by
      obtain ⟨_, rfl⟩ := (State.step_eq_ok_iff (State.coherent_start h.ready.wellFormed)).mp hstep
      cases State.isLast options { table := start } <;> rfl
    cases hwaits : waits options start with
    | true =>
        have hround : Round.waits options (State.current { table := start }) = true := hwaits
        rw [hnext, State.processed_next_of_waits hround] at hprocessed
        exact absurd rfl hprocessed
    | false =>
        refine hsame h.ready.wellFormed ?_
        unfold mergeTable
        rw [hwaits]
        rfl
  · rcases hunderway.phase with ha | hc
    · refine hsame hunderway.wellFormed ?_
      unfold mergeTable
      rw [hunderway.files, ha.files, ha.waits, if_pos rfl, SymbolTable.files_append]
    · refine (SymbolTable.agrees_of_files ?_ hunderway.wellFormed).lookups.symm
      rw [hunderway.files, hc.files, h.files]

theorem isLookup_of_loaded {inputs : List Input} {d : Declaration}
    (hd : d ∈ (loadedTable inputs).declarations) (hlookup : d.isLookup = true) :
    d ∈ inputDeclarations inputs := by
  rw [SymbolTable.declarations_eq, files_loadedTable, List.flatMap_append,
    ← SymbolTable.declarations_eq] at hd
  rcases List.mem_append.mp hd with hd | hd
  · rw [SymbolTable.initial_not_lookup d hd] at hlookup
    exact nomatch hlookup
  · exact hd

theorem inputDeclarations_subset {inputs : List Input} {d : Declaration}
    (hd : d ∈ inputDeclarations inputs) : d ∈ (loadedTable inputs).declarations := by
  rw [SymbolTable.declarations_eq, files_loadedTable, List.flatMap_append]
  exact List.mem_append_right _ hd

theorem mem_requests_iff {inputs : List Input} {r : Declaration}
    (hmerge : options.isDisabled Processor.mergeComponent.id = false) :
    r ∈ requests options (loadedTable inputs) ↔
      r ∈ sourceDeclarations inputs ∧ r.isAnnotatedWith mergeComponent = true := by
  unfold requests Round.merges
  rw [hmerge, Bool.not_false, if_pos rfl, localDeclarations_loadedTable]
  exact List.mem_filter

/-- Every merge request among the sources has its file. -/
theorem Succeeded.exists_file_of_request {inputs : List Input}
    (h : Succeeded options (loadedTable inputs) final)
    (hmerge : options.isDisabled Processor.mergeComponent.id = false) {r : Declaration}
    (hr : r ∈ sourceDeclarations inputs) (hannotated : r.isAnnotatedWith mergeComponent = true) :
    ∃ file ∈ merged options (loadedTable inputs), file ∈ final.workspace.output.files ∧
      file.id = .generated r.aggregateName ∧
        Merge.finalize (mergeTable options (loadedTable inputs)) r = .ok file := by
  obtain ⟨file, hfile, hfinalize⟩ :=
    h.exists_answer ((mem_requests_iff hmerge).mpr ⟨hr, hannotated⟩)
  refine ⟨file, hfile, ?_, ?_, hfinalize⟩
  · rw [h.concluded.files]
    exact List.mem_append_right _ hfile
  · obtain ⟨request, finals, hrequest, _, rfl⟩ := Merge.finalize_eq_ok_iff.mp hfinalize
    exact congrArg FileId.generated (Merge.name_aggregate hrequest _ _)

/-- **The merge waits long enough.** In a successful compilation the file that is generated for a
merge request, in whatever round, is the one that the last table would give as well, with all
sources, all dependencies and everything generated in sight. And from the round on in which the
first request is answered no lookup is added any more. -/
theorem merge_waits_long_enough {inputs : List Input} {n : Nat}
    (hdistinct : ∀ file ∈ inputFiles inputs, file.DistinctNames)
    (horigins : ∀ d ∈ inputDeclarations inputs, ∀ o, d.origin = some o →
      ∃ e ∈ inputDeclarations inputs, e.name = o)
    (hmerge : options.isDisabled Processor.mergeComponent.id = false)
    (h : compile options n inputs = .ok final) :
    (∀ r ∈ sourceDeclarations inputs, r.isAnnotatedWith mergeComponent = true →
      ∃ file ∈ final.workspace.output.files, file.id = .generated r.aggregateName ∧
        Merge.finalize final.table r = .ok file) ∧
    ∀ state, State.Reaches options { table := loadedTable inputs } state →
      ∀ progress, state.step options = .ok progress →
        (State.reached progress).workspace.processed ≠ {} →
          Merge.lookups state.table = Merge.lookups final.table := by
  have hs := succeeded_of_compile hdistinct h
  refine ⟨fun r hr hannotated => ?_, fun state hreaches progress hstep hprocessed =>
    hs.lookups_of_reaches hreaches hstep hprocessed⟩
  -- by the condition on origins the lookups of the inputs lead to inputs
  have hagrees : Agrees (mergeTable options (loadedTable inputs)) final.table := by
    refine hs.agrees fun d hd hlookup o ho => ?_
    obtain ⟨e, he, hname⟩ := horigins d (isLookup_of_loaded hd hlookup) o ho
    exact ⟨e, inputDeclarations_subset he, hname⟩
  obtain ⟨file, _, hfile, hid, hfinalize⟩ := hs.exists_file_of_request hmerge hr hannotated
  exact ⟨file, hfile, hid, (Merge.finalize_eq_ok_iff_of_agrees hagrees).mp hfinalize⟩

/-- The sample declares no origin, and the answer to its request is the one of the last table. -/
theorem component_waits_long_enough :
    ∃ final, compile {} 4 Sample.inputs = .ok final ∧
      ∃ file ∈ final.workspace.output.files,
        Merge.finalize final.table Sample.component = .ok file := by
  obtain ⟨final, hfinal⟩ := Sample.compiles
  have horigins : ∀ d ∈ inputDeclarations Sample.inputs, d.origin = none := by decide
  obtain ⟨file, hfile, _, hfinalize⟩ := (merge_waits_long_enough Sample.distinct
    (fun d hd o ho => by rw [horigins d hd] at ho; exact nomatch ho) rfl hfinal).1
    Sample.component (by decide) (by decide)
  exact ⟨final, hfinal, file, hfile, hfinalize⟩

end Session

end ScopeMerge
