import ScopeMerge.Proofs.Extension
import ScopeMerge.Proofs.Recording

/-!
# A round as a sequence of attempts

A round makes the attempts of the recording processors and then those of the
merge sweep. `State.step` succeeds exactly when all of them succeed and the files
they write fit into the table, and then it leads to `State.next`
(`step_eq_ok_iff`). Everything that is checked on the way, a file identity taken
twice in the output or a name declared twice in the table, is part of that one
condition.

`Coherent` is what holds between any two rounds: the table consists of the table
the compilation started from and of what the output says was generated.
-/

namespace ScopeMerge

open Vocabulary Attempt

namespace Round

/-- The processors that record contributions, in the order in which they run. -/
def recorders : List Processor :=
  [.contributingAnnotations, .contributesTo, .contributesBinding, .contributesSubcomponent,
    .legacy]

/-- The recording processors that the options leave switched on. -/
def recording (options : Options) : List Processor :=
  recorders.filter fun processor => !options.isDisabled processor.id

/-- Whether the options leave merging switched on. -/
def merges (options : Options) : Bool :=
  !options.isDisabled Processor.mergeComponent.id

/-- Runs the recording processors. -/
def recordAll (options : Options) (table : SymbolTable) (workspace : Workspace) : Workspace :=
  (recording options).foldl (fun current processor => (processor.run options table current).1)
    workspace

variable {options : Options} {table : SymbolTable} {workspace : Workspace}

theorem ne_merge_of_recording {processor : Processor} (h : processor ∈ recording options) :
    processor ≠ .mergeComponent := by
  rintro rfl
  have hmem : Processor.mergeComponent ∈ recorders := List.mem_of_mem_filter h
  exact absurd hmem (by decide)

theorem nodup_recording (options : Options) : (recording options).Nodup :=
  List.Nodup.filter _ (by decide)

theorem enabled_eq (options : Options) :
    enabled options = recording options ++ if merges options then [.mergeComponent] else [] := by
  have hall : Processor.all = recorders ++ [.mergeComponent] := rfl
  unfold enabled recording merges
  rw [hall, List.filter_append]
  cases h : options.isDisabled Processor.mergeComponent.id <;> simp [List.filter, h]

/-! ## The recording processors together -/

/-- What the recording processors attempt in a round. -/
def recordAttempts (options : Options) (table : SymbolTable) (taken : Taken) : List Attempt :=
  (recording options).flatMap fun processor => processor.attempts options table taken

theorem recordAll_writes :
    workspace.output.Writes (recordAll options table workspace).output
      (recordAttempts options table workspace.taken) := by
  have hfold : ∀ ps : List Processor, .mergeComponent ∉ ps → ps.Nodup → ∀ w : Workspace,
      w.output.Writes
        (ps.foldl (fun current processor => (processor.run options table current).1) w).output
        (ps.flatMap fun processor => processor.attempts options table w.taken) := by
    intro ps
    induction ps with
    | nil => exact fun _ _ w => Output.Writes.nothing _
    | cons p rest ih =>
        intro hmerge hnodup w
        rw [List.nodup_cons] at hnodup
        have hp : p ≠ .mergeComponent := fun h => hmerge (h ▸ List.mem_cons_self)
        rw [List.foldl_cons, List.flatMap_cons]
        refine (Processor.run_writes hp).trans ?_
        have hrest := ih (fun h => hmerge (List.mem_cons_of_mem _ h)) hnodup.2
          (p.run options table w).1
        -- what the others attempt is not affected by what `p` took
        have hsame : (rest.flatMap fun q =>
            q.attempts options table (p.run options table w).1.taken)
              = rest.flatMap fun q => q.attempts options table w.taken :=
          List.flatMap_congr fun q hq =>
            Processor.attempts_run_of_ne fun h => hnodup.1 (h ▸ hq)
        rw [hsame] at hrest
        exact hrest
  exact hfold _ (fun h => ne_merge_of_recording h rfl) (nodup_recording options) workspace

theorem processed_recordAll (options : Options) (table : SymbolTable) (workspace : Workspace) :
    (recordAll options table workspace).processed = workspace.processed := by
  have hfold : ∀ ps : List Processor, .mergeComponent ∉ ps → ∀ w : Workspace,
      (ps.foldl (fun current processor =>
        (processor.run options table current).1) w).processed = w.processed := by
    intro ps
    induction ps with
    | nil => exact fun _ _ => rfl
    | cons p rest ih =>
        intro hmerge w
        rw [List.foldl_cons, ih fun h => hmerge (List.mem_cons_of_mem _ h)]
        exact Processor.processed_run fun h => hmerge (h ▸ List.mem_cons_self)
  exact hfold _ (fun h => ne_merge_of_recording h rfl) workspace

/-- Processors leave the declarations alone that another one took. -/
theorem takes_foldl_run {processor : Processor} {ps : List Processor} (h : processor ∉ ps)
    (w : Workspace) :
    processor.takes (ps.foldl (fun current p => (p.run options table current).1) w).taken
      = processor.takes w.taken := by
  induction ps generalizing w with
  | nil => rfl
  | cons q rest ih =>
      rw [List.foldl_cons, ih fun hmem => h (List.mem_cons_of_mem _ hmem)]
      exact Processor.takes_run_of_ne fun hq => h (hq ▸ List.mem_cons_self)

theorem done_recordAll {processor : Processor} (h : processor ∈ recording options) :
    processor.Done table (recordAll options table workspace).taken := by
  have hfold : ∀ ps : List Processor, ps.Nodup → processor ∈ ps → ∀ w : Workspace,
      processor.Done table
        (ps.foldl (fun current p => (p.run options table current).1) w).taken := by
    intro ps hnodup hmem
    -- the invariant is that whoever has run has taken everything
    induction ps with
    | nil => exact nomatch hmem
    | cons q rest ih =>
        intro w
        rw [List.nodup_cons] at hnodup
        rw [List.foldl_cons]
        rcases List.mem_cons.mp hmem with rfl | hmem
        · unfold Processor.Done
          rw [takes_foldl_run hnodup.1]
          exact Processor.done_run
        · exact ih hnodup.2 hmem _
  exact hfold _ (nodup_recording options) h workspace

theorem recordAll_of_done
    (h : ∀ processor ∈ recording options, processor.Done table workspace.taken) :
    recordAll options table workspace = workspace := by
  have hfold : ∀ ps : List Processor, .mergeComponent ∉ ps →
      (∀ p ∈ ps, p.Done table workspace.taken) →
      ps.foldl (fun current processor => (processor.run options table current).1) workspace
        = workspace := by
    intro ps
    induction ps with
    | nil => exact fun _ _ => rfl
    | cons p rest ih =>
        intro hmerge hdone
        rw [List.foldl_cons, Processor.run_of_done (fun h => hmerge (h ▸ List.mem_cons_self))
          (hdone p List.mem_cons_self)]
        exact ih (fun h => hmerge (List.mem_cons_of_mem _ h))
          fun q hq => hdone q (List.mem_cons_of_mem _ hq)
  exact hfold _ (fun h => ne_merge_of_recording h rfl) h

theorem recordAttempts_of_done {taken : Taken}
    (h : ∀ processor ∈ recording options, processor.Done table taken) :
    recordAttempts options table taken = [] := by
  unfold recordAttempts
  rw [List.flatMap_eq_nil_iff]
  intro p hp
  have hnone : ∀ contribute, ∀ entry ∈ p.takes taken,
      attemptEach contribute entry.2 (table.delivered entry.1) = [] := by
    intro contribute entry hentry
    unfold attemptEach
    rw [untaken_eq_nil (h p hp entry hentry), List.map_nil]
  have hnone' : ∀ entry ∈ p.takes taken,
      takenAfter entry.2 (table.delivered entry.1) = entry.2 := by
    intro entry hentry
    unfold takenAfter
    rw [untaken_eq_nil (h p hp entry hentry)]
    rfl
  unfold Processor.attempts
  cases p with
  | contributesSubcomponent =>
      dsimp only
      rw [hnone _ (_, _) List.mem_cons_self, hnone' (_, _) List.mem_cons_self,
        hnone _ (_, _) (List.mem_cons_of_mem _ List.mem_cons_self)]
      rfl
  | legacy =>
      dsimp only
      rw [hnone _ (_, _) List.mem_cons_self,
        hnone _ (_, _) (List.mem_cons_of_mem _ List.mem_cons_self)]
      rfl
  | mergeComponent => rfl
  | _ => exact hnone _ (_, _) List.mem_cons_self

/-! ## The whole round -/

/-- The requests that the merge sweep looks at in a round. -/
def requests (options : Options) (table : SymbolTable) (processed : ProcessedRequests) :
    List Declaration :=
  if merges options then Merge.outstanding table processed else []

/-- Whether the merge sweep puts the requests of a round off. -/
def waits (options : Options) (table : SymbolTable) : Bool :=
  Merge.hasNewContributions (.assemble options table) table

/-- What the merge sweep attempts in a round. -/
def mergeAttempts (options : Options) (table : SymbolTable) (processed : ProcessedRequests) :
    List Attempt :=
  if waits options table then []
  else (requests options table processed).map fun d => ofResult (Merge.finalize table d)

/-- What the merge sweep puts off in a round. -/
def pending (options : Options) (table : SymbolTable) (processed : ProcessedRequests) :
    List Name :=
  if waits options table then ((requests options table processed).map (·.name)).eraseDups else []

/-- Everything attempted in a round. -/
def attempts (options : Options) (table : SymbolTable) (workspace : Workspace) : List Attempt :=
  recordAttempts options table workspace.taken ++ mergeAttempts options table workspace.processed

theorem run_eq (options : Options) (table : SymbolTable) (workspace : Workspace) :
    run options table workspace =
      if merges options then
        ((Processor.mergeComponent.run options table (recordAll options table workspace)).1,
          (Processor.mergeComponent.run options table
            (recordAll options table workspace)).2.eraseDups)
      else (recordAll options table workspace, []) := by
  -- as long as nobody puts anything off, only the workspace is handed on
  have hfold : ∀ act : Workspace × List Name → Processor → Workspace × List Name,
      (∀ w deferred p, act (w, deferred) p
        = ((p.run options table w).1, deferred ++ (p.run options table w).2)) →
      ∀ ps : List Processor, .mergeComponent ∉ ps → ∀ w : Workspace, ps.foldl act (w, []) =
        (ps.foldl (fun current processor => (processor.run options table current).1) w, []) := by
    intro act hact ps
    induction ps with
    | nil => exact fun _ _ => rfl
    | cons p rest ih =>
        intro hmerge w
        rw [List.foldl_cons, List.foldl_cons, hact,
          Processor.deferred_run fun h => hmerge (h ▸ List.mem_cons_self), List.append_nil]
        exact ih (fun h => hmerge (List.mem_cons_of_mem _ h)) _
  unfold run runAll
  rw [enabled_eq, List.foldl_append,
    hfold _ (fun _ _ _ => rfl) _ fun h => ne_merge_of_recording h rfl]
  cases merges options <;> rfl

theorem sweep_eq (options : Options) (table : SymbolTable) (processed : ProcessedRequests) :
    Merge.sweep (.assemble options table) table processed =
      if waits options table then
        ({ pending := (Merge.outstanding table processed).map (·.name) }, processed)
      else
        ({ finalized := (Merge.outstanding table processed).map fun d =>
              { request := d.name, result := Merge.finalize table d } },
          (Merge.outstanding table processed).foldl (fun done d => done.insert d.name) processed) :=
  rfl

theorem run_writes (options : Options) (table : SymbolTable) (workspace : Workspace) :
    workspace.output.Writes (run options table workspace).1.output
      (attempts options table workspace) := by
  rw [run_eq]
  unfold attempts mergeAttempts requests
  cases merges options with
  | false =>
      have hnone : (if waits options table then ([] : List Attempt)
          else (if false then Merge.outstanding table workspace.processed else []).map fun d =>
            ofResult (Merge.finalize table d)) = [] := by
        cases waits options table <;> rfl
      rw [hnone, List.append_nil]
      exact recordAll_writes
  | true =>
      rw [if_pos rfl, if_pos rfl]
      refine recordAll_writes.trans ?_
      have hsweep := Output.Writes.foldl (fun finalized => ofResult finalized.result)
        (Merge.sweep (.assemble options table) table workspace.processed).1.finalized
        (fun o finalized _ => Output.Writes.conclude o finalized)
        (recordAll options table workspace).output
      rw [← processed_recordAll options table workspace]
        at hsweep ⊢
      refine hsweep.regroup (Iff.of_eq (congrArg _ ?_)) (congrArg _ ?_) <;>
        · rw [sweep_eq]
          cases waits options table with
          | true => rfl
          | false =>
              rw [if_neg (by simp), if_neg (by simp), List.map_map]
              rfl

theorem run_deferred :
    (run options table workspace).2 = pending options table workspace.processed := by
  rw [run_eq]
  unfold pending requests
  cases merges options with
  | false => cases waits options table <;> rfl
  | true =>
      rw [if_pos rfl, if_pos rfl,
        ← processed_recordAll options table workspace]
      have hsweep := sweep_eq options table (recordAll options table workspace).processed
      show (Merge.sweep (.assemble options table) table
        (recordAll options table workspace).processed).1.pending.eraseDups = _
      rw [hsweep]
      cases waits options table <;> rfl

/-- The sweep leaves the declarations alone that the recording processors took. -/
theorem takes_run {processor : Processor} (h : processor ≠ .mergeComponent) :
    processor.takes (run options table workspace).1.taken
      = processor.takes (recordAll options table workspace).taken := by
  rw [run_eq]
  cases merges options with
  | false => rfl
  | true => exact Processor.takes_run_of_ne h.symm

theorem processed_run :
    (run options table workspace).1.processed =
      if merges options then
        (Merge.sweep (.assemble options table) table workspace.processed).2
      else workspace.processed := by
  rw [run_eq]
  cases merges options with
  | false => exact processed_recordAll _ _ _
  | true =>
      rw [if_pos rfl, if_pos rfl,
        ← processed_recordAll options table workspace]
      rfl

/-! ## What a round writes -/

theorem passive_of_mergeAttempts (hb : table.SeesBuiltins) {processed : ProcessedRequests}
    {file : SourceFile} (h : file ∈ written (mergeAttempts options table processed)) :
    ∀ d ∈ file.declarations, d.Passive := by
  unfold mergeAttempts at h
  split at h
  · exact nomatch h
  · obtain ⟨files, hfiles, hfile⟩ := mem_written.mp h
    obtain ⟨d, _, hresult⟩ := List.mem_map.mp hfiles
    obtain ⟨found, hfound, rfl⟩ := ofResult_eq_some_iff.mp hresult
    obtain rfl := List.mem_singleton.mp hfile
    exact Merge.passive_of_finalize hb hfound

theorem inert_of_recordAttempts {taken : Taken} {file : SourceFile}
    (h : file ∈ written (recordAttempts options table taken)) : file.Inert := by
  obtain ⟨files, hfiles, hfile⟩ := mem_written.mp h
  obtain ⟨p, _, hp⟩ := List.mem_flatMap.mp hfiles
  exact Processor.inert_of_attempts (mem_written.mpr ⟨files, hp, hfile⟩)

/-- **Nothing that a round writes is looked at by a later round.** -/
theorem inert_of_attempts (hb : table.SeesBuiltins) {file : SourceFile}
    (h : file ∈ written (attempts options table workspace)) : file.Inert := by
  unfold attempts at h
  rw [written_append, List.mem_append] at h
  rcases h with h | h
  · exact inert_of_recordAttempts h
  · exact fun d hd => (passive_of_mergeAttempts hb h d hd).1

end Round

/-! ## One step of a session -/

namespace Session.State

variable {options : Options} {start : SymbolTable} {state : State}

/-- The table that the next round works on. -/
def current (state : State) : SymbolTable :=
  state.table.beginRound state.deferred

/-- What the next round attempts. -/
def attempts (options : Options) (state : State) : List Attempt :=
  Round.attempts options state.current state.workspace

/-- The state after the next round, if nothing goes wrong in it. -/
def next (options : Options) (state : State) : State :=
  { table := state.current.append (written (state.attempts options)) true
    workspace := (Round.run options state.current state.workspace).1
    deferred := Round.pending options state.current state.workspace.processed
    rounds := state.rounds + 1 }

/-- Whether the next round leaves nothing to do. -/
def isLast (options : Options) (state : State) : Bool :=
  (written (state.attempts options)).isEmpty && (state.next options).deferred.isEmpty

/-- Nothing goes wrong in the next round. -/
def Succeeds (options : Options) (state : State) : Prop :=
  AllSucceed (state.attempts options) ∧ (state.next options).table.WellFormed

/-- What holds between two rounds of a compilation that started from a given table. -/
structure Coherent (start : SymbolTable) (state : State) : Prop where
  /-- The table holds what the compilation started from and what it generated. -/
  entries : state.table.entries =
    start.entries ++ state.workspace.output.files.map fun file => { file, isLocal := true }
  wellFormed : state.table.WellFormed
  /-- No error was recorded so far. -/
  clean : state.workspace.output.hasErrors = false
  inert : ∀ file ∈ state.workspace.output.files, file.Inert

theorem Coherent.files (h : Coherent start state) :
    state.table.files = start.files ++ state.workspace.output.files := by
  unfold SymbolTable.files
  rw [h.entries, List.map_append, List.map_map]
  exact congrArg _ (List.map_id _)

theorem Coherent.localFiles (h : Coherent start state) :
    state.table.localFiles = start.localFiles ++ state.workspace.output.files := by
  unfold SymbolTable.localFiles
  rw [h.entries, List.filter_append, List.map_append, List.filter_map, List.map_map]
  simp [Function.comp_def]

theorem Coherent.extends (h : Coherent start state) :
    state.current.Extends start state.workspace.output.files where
  files := by
    unfold current
    rw [SymbolTable.files_beginRound, h.files]
  wellFormed := SymbolTable.wellFormed_beginRound_iff.mpr h.wellFormed
  inert := h.inert

theorem Coherent.seesBuiltins (h : Coherent start state) (hb : start.SeesBuiltins) :
    state.current.SeesBuiltins := by
  unfold SymbolTable.SeesBuiltins current
  rw [SymbolTable.files_beginRound, h.files]
  exact hb.trans (List.prefix_append _ _)

theorem coherent_start (hw : start.WellFormed) : Coherent start { table := start } where
  entries := (List.append_nil _).symm
  wellFormed := hw
  clean := rfl
  inert := fun _ hf => nomatch hf

/-- The files of a well-formed table have different identities. -/
theorem fresh_of_wellFormed {table : SymbolTable} {old new : List SourceFile}
    (hold : old ⊆ table.files) (hw : (table.append new true).WellFormed) : Fresh old new := by
  obtain ⟨_, hnew, hapart⟩ := SymbolTable.wellFormed_append_iff.mp hw
  exact ⟨hnew.imp fun h => h.1, fun g hg f hf => (hapart g (hold hg) f hf).1⟩

theorem clean_next_iff (h : Coherent start state) (hw : (state.next options).table.WellFormed) :
    (state.next options).workspace.output.hasErrors = false ↔
      AllSucceed (state.attempts options) := by
  have hwrites := Round.run_writes options state.current state.workspace
  have hold : state.workspace.output.files ⊆ state.current.files := fun file hf =>
    h.extends.extra_subset hf
  refine ⟨?_, ?_⟩
  · exact fun hclean => (hwrites.clean_iff.mp hclean).2.1
  · exact fun hall => hwrites.clean_iff.mpr ⟨h.clean, hall, fresh_of_wellFormed hold hw⟩

theorem files_next (hclean : (state.next options).workspace.output.hasErrors = false) :
    (state.next options).workspace.output.files =
      state.workspace.output.files ++ written (state.attempts options) :=
  (Round.run_writes options state.current state.workspace).files hclean

theorem step_eq (options : Options) (state : State) :
    state.step options =
      if (state.next options).workspace.output.hasErrors then
        .error (.failed (state.next options).workspace.output.diagnostics)
      else
        match state.current.addUnit
          { files := (state.next options).workspace.output.files.drop
              state.workspace.output.files.length } true with
        | .error error => .error (.refused error)
        | .ok extended =>
          .ok (if ((state.next options).workspace.output.files.drop
                  state.workspace.output.files.length).isEmpty &&
                (state.next options).deferred.isEmpty
            then .ends { state.next options with table := extended }
            else .continues { state.next options with table := extended }) := by
  unfold step next
  rw [← Round.run_deferred]
  rfl

/-- **A round succeeds when every attempt does and the result fits into the table.** -/
theorem step_eq_ok_iff (h : Coherent start state) {progress : Progress} :
    state.step options = .ok progress ↔ state.Succeeds options ∧
      progress = if state.isLast options then .ends (state.next options)
        else .continues (state.next options) := by
  -- a round is refused for an error it recorded, or for a file that does not fit
  rw [step_eq]
  cases hclean : (state.next options).workspace.output.hasErrors with
  | true =>
      rw [if_pos rfl]
      refine ⟨?_, ?_⟩
      · intro h
        exact nomatch h
      · intro hround
        obtain ⟨⟨hall, hw⟩, _⟩ := hround
        rw [(clean_next_iff h hw).mpr hall] at hclean
        exact nomatch hclean
  | false =>
      rw [if_neg (by simp), files_next hclean, List.drop_left]
      have hadd : ∀ extended, state.current.addUnit { files := written (state.attempts options) }
          true = .ok extended ↔ extended = (state.next options).table ∧ extended.WellFormed :=
        fun _ => SymbolTable.addUnit_eq_ok_iff h.extends.wellFormed
      split
      · next error herror =>
        refine ⟨?_, ?_⟩
        · intro h
          exact nomatch h
        · intro hround
          obtain ⟨⟨_, hw⟩, _⟩ := hround
          rw [(hadd _).mpr ⟨rfl, hw⟩] at herror
          exact nomatch herror
      · next extended hextended =>
        obtain ⟨rfl, hw⟩ := (hadd _).mp hextended
        have hall := (clean_next_iff h hw).mp hclean
        refine ⟨?_, ?_⟩
        · intro hok
          exact ⟨⟨hall, hw⟩, (Except.ok.inj hok).symm⟩
        · intro hround
          obtain ⟨_, rfl⟩ := hround
          rfl

theorem coherent_next (hb : start.SeesBuiltins) (h : Coherent start state)
    (hs : state.Succeeds options) : Coherent start (state.next options) := by
  have hclean := (clean_next_iff h hs.2).mpr hs.1
  refine ⟨?_, hs.2, hclean, ?_⟩
  · rw [files_next hclean, List.map_append, ← List.append_assoc, ← h.entries]
    rfl
  · intro file hf
    rw [files_next hclean] at hf
    rcases List.mem_append.mp hf with hf | hf
    · exact h.inert file hf
    · exact Round.inert_of_attempts (h.seesBuiltins hb) hf

end Session.State

end ScopeMerge
