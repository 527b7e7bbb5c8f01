import ScopeMerge.Proofs.Deeds
import ScopeMerge.Proofs.Waiting

/-!
# What the first round reports

Every source is delivered in the first round, so whatever is wrong with a source by
itself is found there. A compilation that can be loaded does the deeds of its first
round in any case; if they leave an error behind it ends with just their entries
(`compile_of_error`).

What a processor does with one source is among these deeds: `mem_delivered_first` says
that the source is delivered, and with nothing taken before it is attempted.
-/

namespace ScopeMerge

open Vocabulary

/-- A contribution that is new makes the requests of the round wait. -/
theorem Round.waits_of_introduced {options : Options} {table : SymbolTable} {d : Declaration}
    (hd : d ∈ table.introducedDeclarations) {n : Name}
    (hn : (Registry.assemble options table).contains n = true)
    (hannotated : d.isAnnotatedWith n = true) :
    waits options table = true := by
  obtain ⟨usage, hu, htype⟩ := List.any_eq_true.mp hannotated
  refine List.any_eq_true.mpr ⟨d, hd, List.any_eq_true.mpr ⟨usage, hu, ?_⟩⟩
  rw [of_decide_eq_true htype]
  exact hn

namespace Session

variable {options : Options} {inputs : List Input} {d : Declaration} {processor : Processor}

/-- The table of the first round. -/
def firstTable (inputs : List Input) : SymbolTable :=
  (loadedTable inputs).beginRound []

/-- What is done in the first round. -/
def firstDeeds (options : Options) (inputs : List Input) : List Deed :=
  Round.recordDeeds options (firstTable inputs) {} ++
    Round.mergeDeeds options (firstTable inputs) {}

theorem diagnostics_first (options : Options) (inputs : List Input) :
    (State.next options { table := loadedTable inputs }).workspace.output.diagnostics =
      Deed.entries [] (firstDeeds options inputs) := by
  show (Round.run options (firstTable inputs) {}).1.output.diagnostics = _
  rw [Round.output_run, Deed.foldl_perform]
  rfl

/-- **A compilation ends with the entries of its first round if one of them is an error.** -/
theorem compile_of_error (hw : (loadedTable inputs).WellFormed) {entry : Diagnostic}
    (hentry : entry ∈ Deed.entries [] (firstDeeds options inputs)) (herror : entry.isError = true)
    (n : Nat) :
    compile options (n + 1) inputs =
      .error (.failed (Deed.entries [] (firstDeeds options inputs))) := by
  have hfails : (State.next options
      { table := loadedTable inputs }).workspace.output.hasErrors = true := by
    unfold Output.hasErrors
    rw [diagnostics_first]
    exact List.any_eq_true.mpr ⟨entry, hentry, herror⟩
  have hstep : State.step options { table := loadedTable inputs } =
      .error (.failed (Deed.entries [] (firstDeeds options inputs))) := by
    rw [State.step_eq, if_pos hfails, diagnostics_first]
  rw [compile_eq_complete hw, State.complete_of_error hstep]

/-- What a processor complains of in the first round is reported. -/
theorem mem_entries_first (henabled : processor ∈ Round.recording options) {error : MergeError}
    (h : .complain error ∈ processor.deeds options (firstTable inputs) {}) :
    .ofError error ∈ Deed.entries [] (firstDeeds options inputs) :=
  Deed.mem_entries_iff.mpr (Or.inl
    ⟨error, List.mem_append_left _ (List.mem_flatMap.mpr ⟨processor, henabled, h⟩), rfl⟩)

/-! ## Every source is due -/

/-- A source that is found under its name is new. -/
theorem exists_new_file (hd : d ∈ sourceDeclarations inputs) :
    ∃ file ∈ (firstTable inputs).localFiles, file.id ∈ (firstTable inputs).introduced ∧
      d ∈ file.declarations := by
  rw [← localDeclarations_loadedTable] at hd
  obtain ⟨file, hfile, hd⟩ := List.mem_flatMap.mp hd
  refine ⟨file, hfile, ?_, hd⟩
  show file.id ∈ (loadedTable inputs).incoming
  rw [incoming_loadedTable]
  exact List.mem_map_of_mem hfile

theorem mem_delivered_first (hd : d ∈ sourceDeclarations inputs)
    (hvisible : (firstTable inputs).find? d.name = some d) {annotationType : Name}
    (hannotated : d.isAnnotatedWith annotationType = true) :
    d ∈ (firstTable inputs).delivered annotationType := by
  obtain ⟨file, hfile, hnew, hmem⟩ := exists_new_file hd
  exact SymbolTable.mem_delivered_iff.mpr
    ⟨file, hfile, ⟨d, hmem, hvisible⟩, Or.inl hnew, hannotated⟩

/-- Nothing was taken before, so a source that is delivered is attempted. -/
theorem mem_untaken_first (hd : d ∈ sourceDeclarations inputs)
    (hvisible : (firstTable inputs).find? d.name = some d) {annotationType : Name}
    (hannotated : d.isAnnotatedWith annotationType = true) :
    d ∈ Round.untaken [] ((firstTable inputs).delivered annotationType) :=
  Round.mem_untaken_delivered_iff.mpr
    ⟨mem_delivered_first hd hvisible hannotated, List.not_mem_nil⟩

/-- Next to a contribution no merge request is looked at. -/
theorem mergeDeeds_first (hd : d ∈ sourceDeclarations inputs)
    (hvisible : (firstTable inputs).find? d.name = some d) {n : Name}
    (hn : n ∈ Registry.builtin ++ Registry.legacy options)
    (hannotated : d.isAnnotatedWith n = true) :
    Round.mergeDeeds options (firstTable inputs) {} = [] := by
  obtain ⟨file, hfile, hnew, hmem⟩ := exists_new_file hd
  have hintroduced : d ∈ (firstTable inputs).introducedDeclarations :=
    SymbolTable.mem_introducedDeclarations_iff.mpr
      ⟨file, SymbolTable.localFiles_subset hfile, hnew, d, hmem, hvisible⟩
  unfold Round.mergeDeeds
  rw [if_pos (Round.waits_of_introduced hintroduced (Registry.contains_of_unregistered hn)
    hannotated)]

end Session

end ScopeMerge
