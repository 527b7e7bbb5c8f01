import ScopeMerge.Proofs.Duration
import ScopeMerge.Proofs.Rearranging

/-!
# The order of the inputs does not matter

Files are delivered in the order in which they were added, their declarations in the
order in which they are written, and the processors emit and answer in that order. None
of it reaches what is generated. Two compilations whose inputs differ in order alone
start from tables that are `Alike`; they attempt the same in another order, wait for the
same, and so both go through or neither does, after the same number of rounds, with the
same files.

The only place where a round of one compilation is compared with a round of the other is
the second round, which may put the merge requests off once more (`mirrors_second`).
-/

namespace ScopeMerge

open Attempt Vocabulary

/-- What declarations contribute does not depend on their order. -/
theorem Round.emissions_perm (options : Options) (t : SymbolTable) {ds es : List Declaration}
    (h : ds.Perm es) : (emissions options t ds).Perm (emissions options t es) :=
  List.Perm.flatMap (List.Perm.refl _) fun _ _ => (h.filter _).map _

theorem Alike.beginRound {t t' : SymbolTable} (h : Alike t t') (xs ys : List Name) :
    Alike (t.beginRound xs) (t'.beginRound ys) :=
  ⟨h.files, h.localFiles, h.wellFormed, h.distinct⟩

namespace Session

variable {options : Options} {start start' : SymbolTable}

/-! ## What two compilations attempt -/

theorem emissions_perm (h : Alike start start') :
    (emissions options start).Perm (emissions options start') := by
  unfold emissions
  rw [emissions_congr fun d _ => h.sameContext d]
  exact Round.emissions_perm options start' h.localDeclarations_perm

theorem emitted_perm (h : Alike start start') :
    (emitted options start).Perm (emitted options start') :=
  written_perm (emissions_perm h)

theorem requests_perm (h : Alike start start') :
    (requests options start).Perm (requests options start') := by
  unfold requests
  split
  · exact h.localDeclarations_perm.filter _
  · exact List.Perm.refl _

/-- Both first rounds wait, or neither does. -/
theorem waits_eq (hr : Ready start) (hr' : Ready start') (h : Alike start start') :
    waits options start = waits options start' := by
  have hincoming : ∀ {t t' : SymbolTable}, Ready t → Ready t' → Alike t t' →
      ∀ id ∈ t.incoming, id ∈ t'.incoming := by
    intro t t' hr hr' h id hid
    rw [hr.incoming] at hid
    obtain ⟨file, hfile, rfl⟩ := List.mem_map.mp hid
    obtain ⟨other, hother, hsame, _⟩ := h.localFiles.exists_counterpart hfile
    rw [hr'.incoming, ← hsame]
    exact List.mem_map_of_mem hother
  have hmirrors : Mirrors (start.beginRound []) (start'.beginRound []) :=
    { h.beginRound [] [] with
      introduced := fun id => ⟨hincoming hr hr' h id, hincoming hr' hr h.symm id⟩
      redelivered := fun _ => Iff.rfl }
  exact hmirrors.waits_eq options

theorem alike_mergeTable (hr : Ready start) (hr' : Ready start') (h : Alike start start')
    (hw : (start.append (emitted options start) true).WellFormed) :
    Alike (mergeTable options start) (mergeTable options start') := by
  unfold mergeTable
  rw [← waits_eq hr hr' h]
  split
  · exact h.append (.of_perm (emitted_perm h)) hw fun _ => emitted_distinct
  · exact h

theorem answers_perm (hr : Ready start) (hr' : Ready start') (h : Alike start start')
    (hw : (start.append (emitted options start) true).WellFormed) :
    (answers options start).Perm (answers options start') := by
  have hagrees := (alike_mergeTable hr hr' h hw).agrees
  unfold answers
  rw [List.map_congr_left fun d _ => ofResult_finalize_congr hagrees d]
  exact (requests_perm h).map _

/-- Both compilations write the same files, as far as they come. -/
theorem files_perm (hr : Ready start) (hr' : Ready start') (h : Alike start start')
    (hw : (start.append (emitted options start) true).WellFormed) :
    (emitted options start ++ merged options start).Perm
      (emitted options start' ++ merged options start') :=
  List.Perm.append (emitted_perm h) (written_perm (answers_perm hr hr' h hw))

/-- **If one compilation goes through, so does the other.** -/
theorem goesThrough_of_alike (hr : Ready start) (hr' : Ready start') (h : Alike start start')
    (hg : GoesThrough options start) : GoesThrough options start' where
  emits := (allSucceed_perm (emissions_perm h)).mp hg.emits
  merges := (allSucceed_perm
    (answers_perm hr hr' h (wellFormed_append_emitted hg.fits))).mp hg.merges
  fits := by
    have hfiles := Rearranged.of_perm
      (files_perm hr hr' h (wellFormed_append_emitted hg.fits))
    have hfits := hg.fits
    unfold SymbolTable.WellFormed at hfits ⊢
    rw [SymbolTable.files_append] at hfits ⊢
    exact (h.files.append hfiles).pairwise_apart hfits

/-! ## How long they take -/

/-- What the second round works on, if the first one waits. -/
theorem current_second (hr : Ready start) (hwaits : waits options start = true) :
    (State.next options { table := start }).current =
      ((start.beginRound []).append (emitted options start) true).beginRound
        ((requests options start).map (·.name)).eraseDups := by
  have hround : Round.waits options (State.current { table := start }) = true := hwaits
  have hdeferred := State.deferred_next options { table := start }
  have hlook : Round.requests options (State.current { table := start })
      ({ table := start } : State).workspace.processed = requests options start :=
    State.requests_start hr
  rw [hround, if_pos rfl, hlook] at hdeferred
  have hattempts := @State.attempts_start options start hr
  rw [hwaits, if_pos rfl, List.append_nil] at hattempts
  unfold State.current
  rw [hdeferred]
  unfold State.next emitted
  rw [hattempts]
  rfl

/-- The second rounds are alike, if the first ones wait. -/
theorem mirrors_second (hr : Ready start) (hr' : Ready start') (h : Alike start start')
    (hw : (start.append (emitted options start) true).WellFormed)
    (hwaits : waits options start = true) :
    Mirrors (State.next options { table := start }).current
      (State.next options { table := start' }).current := by
  have hwaits' : waits options start' = true := by
    rw [← waits_eq hr hr' h]
    exact hwaits
  rw [current_second hr hwaits, current_second hr' hwaits']
  have hemitted : (emitted options start).Perm (emitted options start') := emitted_perm h
  have halike := ((h.beginRound [] []).append (.of_perm hemitted) hw
    fun _ => emitted_distinct).beginRound ((requests options start).map (·.name)).eraseDups
      ((requests options start').map (·.name)).eraseDups
  refine { halike with introduced := fun id => ?_, redelivered := fun n => ?_ }
  · have hid : ∀ t : SymbolTable, ∀ fs : List SourceFile,
        id ∈ ((t.beginRound []).append fs true).incoming ↔ id ∈ fs.map (·.id) := by
      intro t fs
      simp [SymbolTable.append, SymbolTable.beginRound]
    exact (hid start _).trans
      ((hemitted.map (·.id)).mem_iff.trans (hid start' _).symm)
  · show n ∈ (_ : List Name).eraseDups ↔ n ∈ (_ : List Name).eraseDups
    rw [List.mem_eraseDups, List.mem_eraseDups]
    exact ((requests_perm h).map (·.name)).mem_iff

theorem duration_eq (hr : Ready start) (hr' : Ready start') (h : Alike start start')
    (hg : GoesThrough options start) : duration options start = duration options start' := by
  have hemitted : emitted options start = [] ↔ emitted options start' = [] := by
    rw [← List.length_eq_zero_iff, ← List.length_eq_zero_iff, (emitted_perm h).length_eq]
  have hrequests : requests options start = [] ↔ requests options start' = [] := by
    rw [← List.length_eq_zero_iff, ← List.length_eq_zero_iff, (requests_perm h).length_eq]
  unfold duration
  rw [← waits_eq hr hr' h]
  simp only [hemitted, hrequests, ne_eq]
  cases hwaits : waits options start with
  | false => simp only [Bool.false_eq_true, false_and, if_false]
  | true =>
      rw [(mirrors_second hr hr' h (wellFormed_append_emitted hg.fits) hwaits).waits_eq options]

/-! ## Compilations -/

section

variable {inputs inputs' : List Input} {n : Nat}

/-- The same inputs, up to the order of the files and of the declarations in each. -/
structure SameInputs (inputs inputs' : List Input) : Prop where
  dependencies : Rearranged (dependencyFiles inputs) (dependencyFiles inputs')
  sources : Rearranged (inputs.flatMap Input.sourceFiles) (inputs'.flatMap Input.sourceFiles)

theorem SameInputs.symm (h : SameInputs inputs inputs') : SameInputs inputs' inputs :=
  ⟨h.dependencies.symm, h.sources.symm⟩

theorem SameInputs.inputFiles (h : SameInputs inputs inputs') :
    Rearranged (inputFiles inputs) (inputFiles inputs') :=
  (Rearranged.of_perm (inputFiles_perm inputs).symm).trans
    ((h.dependencies.append h.sources).trans (.of_perm (inputFiles_perm inputs')))

/-- The tables that the same inputs are loaded into hold the same. -/
theorem alike_loadedTable (h : SameInputs inputs inputs') (hw : (loadedTable inputs).WellFormed)
    (hdistinct : ∀ file ∈ inputFiles inputs, file.DistinctNames) :
    Alike (loadedTable inputs) (loadedTable inputs') where
  files := by
    rw [files_loadedTable, files_loadedTable]
    exact (Rearranged.refl _).append h.inputFiles
  localFiles := by
    rw [localFiles_loadedTable, localFiles_loadedTable]
    exact h.sources
  wellFormed := hw
  distinct := distinctNames_loadedTable hdistinct

/-- **A compilation of rearranged inputs succeeds if the original does.** -/
theorem compile_ok_of_sameInputs (h : SameInputs inputs inputs')
    (hdistinct : ∀ file ∈ inputFiles inputs, file.DistinctNames)
    (hcompiles : ∃ final, compile options n inputs = .ok final) :
    ∃ final, compile options n inputs' = .ok final := by
  have hdistinct' := h.inputFiles.distinctNames hdistinct
  obtain ⟨hg, hn⟩ := (compile_ok_iff_duration hdistinct).mp hcompiles
  have halike := alike_loadedTable h hg.fits.of_append hdistinct
  have hr := ready_loadedTable halike.wellFormed hdistinct
  have hr' := ready_loadedTable halike.symm.wellFormed hdistinct'
  refine (compile_ok_iff_duration hdistinct').mpr ⟨goesThrough_of_alike hr hr' halike hg, ?_⟩
  rw [← duration_eq hr hr' halike hg]
  exact hn

/-- **The order of the inputs does not matter.** If two compilations get the same files, in any
order and each file with its declarations in any order, both succeed or neither does. When they
succeed they take equally many rounds, generate the same files, and hand on the same unit up to the
order of the sources. -/
theorem input_order_does_not_matter (h : SameInputs inputs inputs')
    (hdistinct : ∀ file ∈ inputFiles inputs, file.DistinctNames) :
    ((∃ final, compile options n inputs = .ok final) ↔
        ∃ final, compile options n inputs' = .ok final) ∧
      ∀ final final', compile options n inputs = .ok final →
        compile options n inputs' = .ok final' →
          final.rounds = final'.rounds ∧
          final.workspace.output.files.Perm final'.workspace.output.files ∧
          Rearranged final.result.unit.files final'.result.unit.files := by
  have hdistinct' := h.inputFiles.distinctNames hdistinct
  refine ⟨⟨compile_ok_of_sameInputs h hdistinct, compile_ok_of_sameInputs h.symm hdistinct'⟩, ?_⟩
  intro final final' hfinal hfinal'
  have hs := succeeded_of_compile hdistinct hfinal
  have hs' := succeeded_of_compile hdistinct' hfinal'
  have halike := alike_loadedTable h hs.ready.wellFormed hdistinct
  have hfiles := files_perm hs.ready hs'.ready halike
    (wellFormed_append_emitted hs.goesThrough.fits)
  rw [← hs.concluded.files, ← hs'.concluded.files] at hfiles
  refine ⟨?_, hfiles, ?_⟩
  · rw [rounds_of_compile hdistinct hfinal, rounds_of_compile hdistinct' hfinal']
    exact duration_eq hs.ready hs'.ready halike hs.goesThrough
  · show Rearranged final.table.localUnit.files final'.table.localUnit.files
    rw [SymbolTable.files_localUnit hs.underway.wellFormed,
      SymbolTable.files_localUnit hs'.underway.wellFormed, hs.underway.localFiles,
      hs'.underway.localFiles, List.map_append, List.map_append]
    exact (halike.localFiles.settled hs.ready.distinct).append (.of_perm (hfiles.map _))

end

end Session

/-- The sample may be given the other way round, in one unit. -/
theorem Session.backward_compiles_alike :
    ∃ final final', compile {} 4 Sample.inputs = .ok final ∧
      compile {} 4 [.sources { files := Sample.application.files ++ Sample.library.files }]
        = .ok final' ∧
      final.rounds = final'.rounds ∧
      final.workspace.output.files.Perm final'.workspace.output.files := by
  have hsources : Rearranged (Sample.library.files ++ Sample.application.files)
      (Sample.application.files ++ Sample.library.files) := .of_perm List.perm_append_comm
  have hinputs : SameInputs Sample.inputs
      [.sources { files := Sample.application.files ++ Sample.library.files }] :=
    ⟨.refl _, hsources⟩
  obtain ⟨hiff, hsame⟩ := input_order_does_not_matter hinputs Sample.distinct
  obtain ⟨final, hfinal⟩ := Sample.compiles
  obtain ⟨final', hfinal'⟩ := hiff.mp ⟨final, hfinal⟩
  obtain ⟨hrounds, hfiles, _⟩ := hsame final final' hfinal hfinal'
  exact ⟨final, final', hfinal, hfinal', hrounds, hfiles⟩

end ScopeMerge
