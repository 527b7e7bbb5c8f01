import ScopeMerge.Proofs.Emission
import ScopeMerge.Proofs.Termination

/-!
# What a compilation comes to

When no source declares a name twice, the outcome of a compilation can be written
down without running it. Everything is a function of the options and of the table
the compilation starts from:

* `emitted`, what the sources contribute;
* `mergeTable`, the table that every merge request is answered from. It includes
  what was emitted if the first round waits for it;
* `merged`, the answers.

`GoesThrough` says that none of it is refused. A compilation that may take four
rounds succeeds exactly then (`compile_ok_iff`), and what it generates is
`emitted ++ merged`, in whatever rounds that happened. The induction is over the
rounds: `Underway` is the invariant, and it says which of the two parts has been
written so far.
-/

namespace ScopeMerge

open Vocabulary Attempt

/-- Tables with the same files are the same to a merge. -/
theorem SymbolTable.agrees_of_files {t t' : SymbolTable} (h : t'.files = t.files)
    (hw : t'.WellFormed) : Agrees t t' := by
  have hextends : t'.Extends t [] := ⟨List.Perm.of_eq (by rw [h, List.append_nil]), hw, nofun⟩
  exact hextends.agrees nofun fun _ _ _ _ _ => nofun

theorem Attempt.ofResult_finalize_congr {t t' : SymbolTable} (h : Agrees t t') (d : Declaration) :
    ofResult (Merge.finalize t d) = ofResult (Merge.finalize t' d) := by
  refine Option.ext fun files => ?_
  rw [ofResult_eq_some_iff, ofResult_eq_some_iff]
  simp only [Merge.finalize_eq_ok_iff_of_agrees h]

theorem Merge.firstOfEachName_of_nodup {ds : List Declaration} (h : (ds.map (·.name)).Nodup) :
    firstOfEachName ds = ds := by
  induction ds with
  | nil => rfl
  | cons d rest ih =>
      rw [List.map_cons, List.nodup_cons] at h
      rw [firstOfEachName, ih h.2, List.filter_eq_self.mpr]
      intro e he
      simp only [ne_eq, decide_not, Bool.not_eq_true', decide_eq_false_iff_not]
      exact fun hname => h.1 (List.mem_map.mpr ⟨e, he, hname⟩)

namespace Session

/-- A table that a compilation can start from, without a repeated name in any source. -/
structure Ready (start : SymbolTable) : Prop where
  wellFormed : start.WellFormed
  builtins : start.SeesBuiltins
  /-- Every source is new. -/
  incoming : start.incoming = start.localFiles.map (·.id)
  distinct : ∀ file ∈ start.localFiles, file.DistinctNames

/-! ## The outcome as a function -/

section

variable (options : Options) (start : SymbolTable)

/-- What the sources attempt to contribute. -/
def emissions : List Attempt :=
  Round.emissions options start start.localDeclarations

/-- What the sources contribute. -/
def emitted : List SourceFile :=
  written (emissions options start)

/-- Whether the first round puts the merge requests off. -/
def waits : Bool :=
  Round.waits options (start.beginRound [])

/-- The table that the merge requests are answered from. -/
def mergeTable : SymbolTable :=
  if waits options start then start.append (emitted options start) true else start

/-- The merge requests among the sources. -/
def requests : List Declaration :=
  if Round.merges options then
    start.localDeclarations.filter (·.isAnnotatedWith mergeComponent)
  else []

/-- The answers to the merge requests. -/
def answers : List Attempt :=
  (requests options start).map fun d => ofResult (Merge.finalize (mergeTable options start) d)

/-- What the merge requests result in. -/
def merged : List SourceFile :=
  written (answers options start)

/-- Nothing that the compilation attempts is refused. -/
structure GoesThrough : Prop where
  emits : AllSucceed (emissions options start)
  merges : AllSucceed (answers options start)
  /-- No identity and no name is taken twice. -/
  fits : (start.append (emitted options start ++ merged options start) true).WellFormed

end

variable {options : Options} {start : SymbolTable}

theorem requests_subset {r : Declaration} (h : r ∈ requests options start) :
    r ∈ start.localDeclarations ∧ r.isAnnotatedWith mergeComponent = true := by
  unfold requests at h
  split at h
  · exact List.mem_filter.mp h
  · exact nomatch h

/-- What a merge results in answers a request. -/
theorem exists_request_of_merged {file : SourceFile} (h : file ∈ merged options start) :
    ∃ r ∈ requests options start, Merge.finalize (mergeTable options start) r = .ok file := by
  obtain ⟨files, hfiles, hfile⟩ := mem_written.mp h
  obtain ⟨r, hr, hresult⟩ := List.mem_map.mp hfiles
  obtain ⟨found, hfound, rfl⟩ := ofResult_eq_some_iff.mp hresult
  rw [List.mem_singleton.mp hfile]
  exact ⟨r, hr, hfound⟩

/-- And if no answer is refused, every request has one. -/
theorem exists_answer (h : AllSucceed (answers options start)) {r : Declaration}
    (hr : r ∈ requests options start) :
    ∃ file ∈ merged options start, Merge.finalize (mergeTable options start) r = .ok file := by
  have hmem := List.mem_map_of_mem (f := fun d =>
    ofResult (Merge.finalize (mergeTable options start) d)) hr
  obtain ⟨files, hfiles⟩ := Option.isSome_iff_exists.mp (h _ hmem)
  obtain ⟨file, hfile, rfl⟩ := ofResult_eq_some_iff.mp hfiles
  refine ⟨file, mem_written.mpr ⟨[file], ?_, List.mem_cons_self⟩, hfile⟩
  rw [← hfiles]
  exact hmem

/-- What is emitted declares one name a file. -/
theorem emitted_distinct {file : SourceFile} (h : file ∈ emitted options start) :
    file.DistinctNames := by
  obtain ⟨e, rfl, _⟩ := emitted_cases h
  exact List.nodup_singleton e.name

theorem inert_of_emitted {file : SourceFile} (h : file ∈ emitted options start) : file.Inert := by
  obtain ⟨e, rfl, d, _, hcases⟩ := emitted_cases h
  intro x hx
  rw [List.mem_singleton.mp hx]
  rcases hcases with ⟨_, _, hstands, _⟩ | ⟨rfl, _⟩
  · exact hstands.inert
  · exact (Contribution.passive_markerOf d).1

theorem files_mergeTable (options : Options) (start : SymbolTable) :
    (mergeTable options start).files =
      start.files ++ if waits options start then emitted options start else [] := by
  unfold mergeTable
  cases waits options start with
  | true => exact SymbolTable.files_append
  | false => exact (List.append_nil _).symm

theorem wellFormed_mergeTable (h : (start.append (emitted options start) true).WellFormed) :
    (mergeTable options start).WellFormed := by
  unfold mergeTable
  split
  · exact h
  · exact h.of_append

theorem mergeTable_extends (h : (start.append (emitted options start) true).WellFormed) :
    (mergeTable options start).Extends start
      (if waits options start then emitted options start else []) where
  files := List.Perm.of_eq (files_mergeTable _ _)
  wellFormed := wellFormed_mergeTable h
  inert := by
    intro file hf
    split at hf
    · exact inert_of_emitted hf
    · exact nomatch hf

/-- If everything fits at the end, what is emitted fits by itself. -/
theorem wellFormed_append_emitted
    (h : (start.append (emitted options start ++ merged options start) true).WellFormed) :
    (start.append (emitted options start) true).WellFormed := by
  rw [← SymbolTable.append_append] at h
  exact h.of_append

/-- Without a merge request it is enough that the contributions go through. -/
theorem goesThrough_of_no_requests (hnone : requests options start = [])
    (hemits : AllSucceed (emissions options start))
    (hfits : (start.append (emitted options start) true).WellFormed) :
    GoesThrough options start := by
  have hanswers : answers options start = [] := by
    unfold answers
    rw [hnone]
    rfl
  have hmerged : merged options start = [] := by
    unfold merged
    rw [hanswers]
    rfl
  refine ⟨hemits, ?_, ?_⟩
  · rw [hanswers]
    exact nofun
  · rwa [hmerged, List.append_nil]

namespace State

variable {state : State}

/-! ## The two phases after the first round -/

/-- The contributions are written, and the merge requests were put off. -/
structure Awaiting (options : Options) (start : SymbolTable) (state : State) : Prop where
  waits : waits options start = true
  files : state.workspace.output.files = emitted options start
  processed : state.workspace.processed = {}
  deferred : state.deferred = ((requests options start).map (·.name)).eraseDups

/-- Everything is written. -/
structure Concluded (options : Options) (start : SymbolTable) (state : State) : Prop where
  files : state.workspace.output.files = emitted options start ++ merged options start
  merges : AllSucceed (answers options start)
  deferred : state.deferred = []

/-- What holds after every round. -/
structure Underway (options : Options) (start : SymbolTable) (state : State) : Prop
    extends Settled options start state where
  emits : AllSucceed (emissions options start)
  phase : Awaiting options start state ∨ Concluded options start state

/-- Nothing is left to wait for once nothing is put off. -/
theorem Awaiting.concluded (h : Awaiting options start state) (hd : state.deferred = []) :
    Concluded options start state := by
  -- whatever was put off would be among the deferred names
  have hnone : requests options start = [] := by
    rw [List.eq_nil_iff_forall_not_mem]
    intro r hr
    have hmem : r.name ∈ state.deferred := by
      rw [h.deferred, List.mem_eraseDups]
      exact List.mem_map_of_mem hr
    rw [hd] at hmem
    exact nomatch hmem
  have hanswers : answers options start = [] := by
    unfold answers
    rw [hnone]
    rfl
  refine ⟨?_, ?_, hd⟩
  · unfold merged
    rw [h.files, hanswers]
    exact (List.append_nil _).symm
  · rw [hanswers]
    exact nofun

/-! ## What each round attempts -/

/-- The requests that a round looks at when all are due and none was answered. -/
theorem requests_current (hr : Ready start) (h : Coherent start state)
    (hgenerated : ∀ file ∈ state.workspace.output.files, file.DistinctNames)
    (hdue : ∀ file ∈ start.localFiles, ∀ r ∈ file.declarations,
      r.isAnnotatedWith mergeComponent = true →
        file.id ∈ state.table.incoming ∨ r.name ∈ state.deferred)
    (hprocessed : state.workspace.processed = {}) :
    Round.requests options state.current state.workspace.processed = requests options start := by
  have hlocal : state.current.localFiles = start.localFiles ++ state.workspace.output.files :=
    h.localFiles
  -- generated files contain no request, and each source is delivered or put off before
  have hinert : ∀ file ∈ state.workspace.output.files, ∀ d ∈ file.declarations,
      d.isAnnotatedWith mergeComponent = false := fun file hf d hd =>
    (h.inert file hf d hd).annotations mergeComponent (by decide)
  have hdelivered : state.current.delivered mergeComponent =
      start.localDeclarations.filter (·.isAnnotatedWith mergeComponent) := by
    rw [SymbolTable.delivered_eq_filter h.extends.wellFormed]
    · unfold SymbolTable.localDeclarations
      rw [hlocal, List.flatMap_append, List.filter_append, List.append_right_eq_self,
        List.filter_eq_nil_iff]
      intro d hd
      obtain ⟨file, hf, hd⟩ := List.mem_flatMap.mp hd
      rw [hinert file hf d hd]
      exact Bool.false_ne_true
    · rw [hlocal]
      intro file hf
      rcases List.mem_append.mp hf with hf | hf
      · exact hr.distinct file hf
      · exact hgenerated file hf
    · rw [hlocal]
      intro file hf r hmem hannotated
      rcases List.mem_append.mp hf with hf | hf
      · exact hdue file hf r hmem hannotated
      · rw [hinert file hf r hmem] at hannotated
        exact nomatch hannotated
  have hnames : ((start.localDeclarations.filter (·.isAnnotatedWith mergeComponent)).map
      (·.name)).Nodup :=
    (List.filter_sublist.map _).nodup
      (SymbolTable.nodup_names_localDeclarations hr.wellFormed hr.distinct)
  unfold Round.requests requests Merge.outstanding
  rw [hdelivered, Merge.firstOfEachName_of_nodup hnames, hprocessed, List.filter_eq_self.mpr]
  exact fun _ _ => rfl

theorem requests_start (hr : Ready start) :
    Round.requests options (current { table := start }) {} = requests options start :=
  @requests_current options start { table := start } hr (coherent_start hr.wellFormed) nofun
    (fun file hf _ _ _ => Or.inl (by rw [hr.incoming]; exact List.mem_map_of_mem hf)) rfl

theorem requests_awaiting (hr : Ready start) (h : Settled options start state)
    (ha : Awaiting options start state) :
    Round.requests options state.current state.workspace.processed = requests options start := by
  cases hmerges : Round.merges options with
  | false =>
      unfold Round.requests requests
      rw [hmerges]
      rfl
  | true =>
      refine requests_current hr h.toCoherent ?_ ?_ ha.processed
      · rw [ha.files]
        exact fun file => emitted_distinct
      · intro file hf r hmem hannotated
        refine Or.inr ?_
        rw [ha.deferred, List.mem_eraseDups]
        unfold requests
        rw [hmerges, if_pos rfl]
        exact List.mem_map_of_mem (List.mem_filter.mpr
          ⟨List.mem_flatMap.mpr ⟨file, hf, hmem⟩, hannotated⟩)

/-- **The first round attempts what the sources contribute**, and the merge requests as well
unless it waits. -/
theorem attempts_start (hr : Ready start) :
    attempts options { table := start } =
      emissions options start ++ if waits options start then [] else answers options start := by
  have hnew : ∀ file ∈ start.localFiles, file.id ∈ start.incoming := by
    intro file hf
    rw [hr.incoming]
    exact List.mem_map_of_mem hf
  have hagrees : Agrees start (start.beginRound []) :=
    SymbolTable.agrees_of_files rfl hr.wellFormed
  have hextends : (start.beginRound []).Extends start [] :=
    (coherent_start hr.wellFormed).extends
  have hrecord : Round.recordAttempts options (start.beginRound []) {}
      = emissions options start := by
    have hwell : (start.beginRound []).WellFormed := hr.wellFormed
    rw [recordAttempts_first hwell hr.distinct hnew]
    exact (emissions_congr fun d _ => hextends.sameContext d).symm
  -- to the recording processors and to a merge the new round changes nothing about the table
  unfold attempts Round.attempts Round.mergeAttempts
  refine congrArg₂ _ hrecord ?_
  show (if waits options start then [] else
    (Round.requests options (current { table := start }) {}).map
      fun d => ofResult (Merge.finalize (start.beginRound []) d)) = _
  rw [requests_start hr]
  unfold answers mergeTable
  cases waits options start with
  | true => rw [if_pos rfl, if_pos rfl]
  | false => exact List.map_congr_left fun d _ => (ofResult_finalize_congr hagrees d).symm

/-- **A round after a wait attempts the merge requests**, or it waits again. -/
theorem attempts_awaiting (hr : Ready start) (h : Settled options start state)
    (ha : Awaiting options start state) :
    state.attempts options =
      if Round.waits options state.current then [] else answers options start := by
  have hagrees : Agrees (mergeTable options start) state.current := by
    refine SymbolTable.agrees_of_files ?_ h.extends.wellFormed
    unfold mergeTable
    rw [ha.waits, if_pos rfl, SymbolTable.files_append, ← ha.files]
    exact h.files
  rw [h.attempts_eq]
  unfold Round.mergeAttempts answers
  rw [requests_awaiting hr h ha]
  split
  · rfl
  · exact List.map_congr_left fun d _ => (ofResult_finalize_congr hagrees d).symm

/-- A round after everything is written attempts nothing. -/
theorem attempts_concluded (h : Settled options start state)
    (hc : Concluded options start state) : state.attempts options = [] := by
  rw [h.attempts_eq]
  unfold Round.mergeAttempts
  rw [h.requests_of_quiet hc.deferred]
  exact ite_self _

/-! ## The invariant -/

/-- A round that waits leaves the requests as they were. -/
theorem processed_next_of_waits (hwaits : Round.waits options state.current = true) :
    (state.next options).workspace.processed = state.workspace.processed := by
  unfold next
  rw [Round.processed_run, Round.sweep_eq, hwaits]
  exact ite_self _

theorem deferred_next (options : Options) (state : State) :
    (state.next options).deferred =
      if Round.waits options state.current then
        ((Round.requests options state.current state.workspace.processed).map (·.name)).eraseDups
      else [] := rfl

theorem underway_of_start (hr : Ready start)
    (hs : Succeeds options { table := start }) :
    Underway options start (next options { table := start }) := by
  have hsettled := settled_of_start hr.builtins hr.wellFormed hr.incoming hs
  have hfiles := files_next hsettled.clean
  have hall := hs.1
  have hdeferred := deferred_next options { table := start }
  rw [attempts_start hr] at hfiles hall
  refine ⟨hsettled, (allSucceed_append.mp hall).1, ?_⟩
  -- the two phases: put off if the round waits, written if it does not
  cases hwaits : waits options start with
  | true =>
      have hround : Round.waits options (current { table := start }) = true := hwaits
      rw [hwaits, if_pos rfl, List.append_nil] at hfiles
      rw [hround, if_pos rfl, requests_start hr] at hdeferred
      exact Or.inl ⟨hwaits, hfiles, processed_next_of_waits hround, hdeferred⟩
  | false =>
      have hround : Round.waits options (current { table := start }) = false := hwaits
      rw [hwaits, if_neg (by simp), written_append] at hfiles
      rw [hwaits, if_neg (by simp)] at hall
      rw [hround, if_neg (by simp)] at hdeferred
      exact Or.inr ⟨hfiles, (allSucceed_append.mp hall).2, hdeferred⟩

theorem underway_next (hr : Ready start) (h : Underway options start state)
    (hs : state.Succeeds options) : Underway options start (state.next options) := by
  have hsettled := settled_next hr.builtins h.toSettled hs
  have hfiles := files_next hsettled.clean
  have hall := hs.1
  have hdeferred := deferred_next options state
  refine ⟨hsettled, h.emits, ?_⟩
  -- a round may wait once more, and then nothing changes
  rcases h.phase with ha | hc
  · rw [attempts_awaiting hr h.toSettled ha] at hfiles hall
    rw [requests_awaiting hr h.toSettled ha] at hdeferred
    cases hwaits : Round.waits options state.current with
    | true =>
        rw [hwaits, if_pos rfl] at hfiles hdeferred
        exact Or.inl ⟨ha.waits, hfiles.trans ((List.append_nil _).trans ha.files),
          (processed_next_of_waits hwaits).trans ha.processed, hdeferred⟩
    | false =>
        rw [hwaits, if_neg (by simp)] at hfiles hall hdeferred
        refine Or.inr ⟨?_, hall, hdeferred⟩
        rw [hfiles, ha.files]
        rfl
  · rw [attempts_concluded h.toSettled hc] at hfiles
    rw [h.requests_of_quiet hc.deferred] at hdeferred
    exact Or.inr ⟨hfiles.trans ((List.append_nil _).trans hc.files), hc.merges,
      hdeferred.trans (ite_self _)⟩

/-! ## Rounds that succeed -/

/-- A round succeeds if the compilation goes through and the files stay among those it writes. -/
theorem succeeds_of_sublist (hg : GoesThrough options start) (h : Coherent start state)
    (hall : AllSucceed (state.attempts options))
    (hsub : (state.workspace.output.files ++ written (state.attempts options)).Sublist
      (emitted options start ++ merged options start)) : state.Succeeds options := by
  refine ⟨hall, hg.fits.of_subperm ?_⟩
  have hfiles : (state.next options).table.files =
      start.files ++ (state.workspace.output.files ++ written (state.attempts options)) := by
    unfold next
    rw [SymbolTable.files_append, ← List.append_assoc, ← h.files]
    rfl
  rw [hfiles, SymbolTable.files_append]
  exact (List.Sublist.append_left hsub _).subperm

theorem succeeds_start (hr : Ready start) (hg : GoesThrough options start) :
    Succeeds options { table := start } := by
  refine succeeds_of_sublist hg (coherent_start hr.wellFormed) ?_ ?_
  · rw [attempts_start hr, allSucceed_append]
    refine ⟨hg.emits, ?_⟩
    split
    · exact nofun
    · exact hg.merges
  · rw [attempts_start hr, written_append]
    show (emitted options start ++ _).Sublist _
    refine List.Sublist.append_left ?_ _
    split
    · exact List.nil_sublist _
    · exact List.Sublist.refl _

theorem succeeds_underway (hr : Ready start) (hg : GoesThrough options start)
    (h : Underway options start state) : state.Succeeds options := by
  refine succeeds_of_sublist hg h.toCoherent ?_ ?_
  all_goals rcases h.phase with ha | hc
  · rw [attempts_awaiting hr h.toSettled ha]
    split
    · exact nofun
    · exact hg.merges
  · rw [attempts_concluded h.toSettled hc]
    exact nofun
  · rw [attempts_awaiting hr h.toSettled ha, ha.files]
    refine List.Sublist.append_left ?_ _
    split
    · exact List.nil_sublist _
    · exact List.Sublist.refl _
  · rw [attempts_concluded h.toSettled hc, hc.files]
    show (_ ++ []).Sublist _
    rw [List.append_nil]

/-! ## Whole runs -/

/-- One state comes after another in a compilation. -/
inductive Reaches (options : Options) (first : State) : State → Prop where
  | refl : Reaches options first first
  | round {last following : State} : Reaches options first last →
      last.step options = .ok (.continues following) → Reaches options first following

/-- A run may be told from its first round on as well. -/
theorem Reaches.head {first second last : State} (h : Reaches options second last)
    (hstep : first.step options = .ok (.continues second)) : Reaches options first last := by
  induction h with
  | refl => exact .round .refl hstep
  | round _ hround ih => exact .round ih hround

/-- Either nothing was run yet, or a first round was. -/
theorem Reaches.cases_head {first last : State} (h : Reaches options first last) :
    first = last ∨ ∃ second, first.step options = .ok (.continues second) ∧
      Reaches options second last := by
  induction h with
  | refl => exact Or.inl rfl
  | @round before following _ hstep ih =>
      refine Or.inr ?_
      rcases ih with rfl | ⟨second, hsecond, hrest⟩
      · exact ⟨following, hstep, .refl⟩
      · exact ⟨second, hsecond, .round hrest hstep⟩

theorem coherent_of_cases (hr : Ready start)
    (h : state = { table := start } ∨ Underway options start state) : Coherent start state := by
  rcases h with rfl | hunderway
  · exact coherent_start hr.wellFormed
  · exact hunderway.toCoherent

theorem underway_of_cases (hr : Ready start)
    (h : state = { table := start } ∨ Underway options start state)
    (hs : state.Succeeds options) : Underway options start (state.next options) := by
  rcases h with rfl | hunderway
  · exact underway_of_start hr hs
  · exact underway_next hr hunderway hs

/-- The invariant of all states between two rounds. -/
theorem underway_of_reaches (hr : Ready start) (h : Reaches options { table := start } state) :
    state = { table := start } ∨ Underway options start state := by
  induction h with
  | refl => exact Or.inl rfl
  | round _ hstep ih =>
      obtain ⟨hs, hprogress⟩ := (step_eq_ok_iff (coherent_of_cases hr ih)).mp hstep
      split at hprogress
      · exact nomatch hprogress
      · obtain rfl := Progress.continues.inj hprogress
        exact Or.inr (underway_of_cases hr ih hs)

/-- A round of a compilation leads to the next state, which is underway. -/
theorem underway_of_step (hr : Ready start) (h : Reaches options { table := start } state)
    {progress : Progress} (hstep : state.step options = .ok progress) :
    reached progress = state.next options ∧ Underway options start (state.next options) := by
  have hcases := underway_of_reaches hr h
  obtain ⟨hs, hprogress⟩ := (step_eq_ok_iff (coherent_of_cases hr hcases)).mp hstep
  refine ⟨?_, underway_of_cases hr hcases hs⟩
  rw [hprogress]
  split <;> rfl

/-- **A run ends as a round ends** from a state it reaches, unless it runs out of rounds. -/
theorem complete_cases (options : Options) (state : State) (n : Nat) :
    (∃ rounds, state.complete options n = .error (.roundLimit rounds)) ∨
      ∃ last, Reaches options state last ∧
        last.step options = (state.complete options n).map Progress.ends := by
  induction n generalizing state with
  | zero => exact Or.inl ⟨_, rfl⟩
  | succ n ih =>
      cases hstep : state.step options with
      | error error =>
          rw [complete_of_error hstep]
          exact Or.inr ⟨state, .refl, hstep⟩
      | ok progress =>
          cases progress with
          | ends final =>
              rw [complete_of_ends hstep]
              exact Or.inr ⟨state, .refl, hstep⟩
          | continues following =>
              rw [complete_of_continues hstep]
              refine (ih following).imp_right fun hlast => ?_
              obtain ⟨last, hreaches, hlast⟩ := hlast
              exact ⟨last, hreaches.head hstep, hlast⟩

theorem exists_last_of_complete {n : Nat} {final : State}
    (h : state.complete options n = .ok final) :
    ∃ last, Reaches options state last ∧ last.step options = .ok (.ends final) := by
  rcases complete_cases options state n with ⟨_, hlimit⟩ | ⟨last, hreaches, hlast⟩
  · rw [h] at hlimit
    exact nomatch hlimit
  · rw [h] at hlast
    exact ⟨last, hreaches, hlast⟩

theorem exists_failing_round {n : Nat} {error : SessionError}
    (h : state.complete options n = .error error) :
    (∃ rounds, error = .roundLimit rounds) ∨
      ∃ last, Reaches options state last ∧ last.step options = .error error := by
  refine (complete_cases options state n).imp (fun hlimit => ?_) fun hlast => ?_
  · obtain ⟨rounds, hlimit⟩ := hlimit
    exact ⟨rounds, Except.error.inj (h.symm.trans hlimit)⟩
  · obtain ⟨last, hreaches, hlast⟩ := hlast
    rw [h] at hlast
    exact ⟨last, hreaches, hlast⟩

/-- **After a successful run everything is written.** -/
theorem concluded_of_complete (hr : Ready start) {n : Nat} {final : State}
    (h : State.complete options n { table := start } = .ok final) :
    Underway options start final ∧ Concluded options start final := by
  obtain ⟨last, hreaches, hlast⟩ := exists_last_of_complete h
  have hcases := underway_of_reaches hr hreaches
  obtain ⟨hs, hprogress⟩ := (step_eq_ok_iff (coherent_of_cases hr hcases)).mp hlast
  split at hprogress
  · next hidle =>
    obtain rfl := Progress.ends.inj hprogress
    have hunderway := underway_of_cases hr hcases hs
    have hdeferred : (last.next options).deferred = [] :=
      List.isEmpty_iff.mp (Bool.and_eq_true_iff.mp hidle).2
    exact ⟨hunderway, hunderway.phase.elim (·.concluded hdeferred) id⟩
  · exact nomatch hprogress

/-- A run in which every round succeeds does not fail. -/
theorem complete_of_succeeds (hr : Ready start) (hg : GoesThrough options start) (n : Nat)
    (h : state = { table := start } ∨ Underway options start state) :
    (∃ final, state.complete options n = .ok final) ∨
      ∃ rounds, state.complete options n = .error (.roundLimit rounds) := by
  induction n generalizing state with
  | zero => exact Or.inr ⟨state.rounds, rfl⟩
  | succ n ih =>
      -- every round on the way succeeds, so the run ends or continues underway
      have hs : state.Succeeds options := by
        rcases h with rfl | hunderway
        · exact succeeds_start hr hg
        · exact succeeds_underway hr hg hunderway
      have hstep := (step_eq_ok_iff (coherent_of_cases hr h)).mpr ⟨hs, rfl⟩
      cases hlast : state.isLast options with
      | true =>
          rw [hlast, if_pos rfl] at hstep
          exact Or.inl ⟨_, complete_of_ends hstep⟩
      | false =>
          rw [hlast, if_neg (by simp)] at hstep
          rw [complete_of_continues hstep]
          exact ih (Or.inr (underway_of_cases hr h hs))

end State

/-! ## Whole compilations -/

section

variable {inputs : List Input} {n : Nat}

theorem ready_loadedTable (hw : (loadedTable inputs).WellFormed)
    (hdistinct : ∀ file ∈ inputFiles inputs, file.DistinctNames) :
    Ready (loadedTable inputs) where
  wellFormed := hw
  builtins := seesBuiltins_loadedTable inputs
  incoming := incoming_loadedTable inputs
  distinct := by
    rw [localFiles_loadedTable]
    exact fun file hf => hdistinct file (sourceFiles_subset hf)

/-- What is known of a compilation that succeeds. -/
structure Succeeded (options : Options) (start : SymbolTable) (final : State) : Prop where
  ready : Ready start
  underway : State.Underway options start final
  concluded : State.Concluded options start final

theorem succeeded_of_compile (hdistinct : ∀ file ∈ inputFiles inputs, file.DistinctNames)
    {final : State} (h : compile options n inputs = .ok final) :
    Succeeded options (loadedTable inputs) final := by
  obtain ⟨hw, hcomplete⟩ := compile_eq_ok_iff.mp h
  have hr := ready_loadedTable hw hdistinct
  obtain ⟨hunderway, hconcluded⟩ := State.concluded_of_complete hr hcomplete
  exact ⟨hr, hunderway, hconcluded⟩

theorem Succeeded.files {final : State} (h : Succeeded options start final) :
    final.table.files = start.files ++ (emitted options start ++ merged options start) := by
  rw [h.underway.files, h.concluded.files]

theorem Succeeded.goesThrough {final : State} (h : Succeeded options start final) :
    GoesThrough options start where
  emits := h.underway.emits
  merges := h.concluded.merges
  fits := by
    refine h.underway.wellFormed.of_perm (List.Perm.of_eq ?_)
    rw [h.files, SymbolTable.files_append]

theorem Succeeded.extends_start {final : State} (h : Succeeded options start final) :
    final.table.Extends start final.workspace.output.files where
  files := by rw [h.underway.files]
  wellFormed := h.underway.wellFormed
  inert := h.underway.inert

/-- A request that was answered, with its answer. -/
theorem Succeeded.exists_answer {final : State} (h : Succeeded options start final)
    {r : Declaration}
    (hr : r ∈ requests options start) :
    ∃ file ∈ merged options start, Merge.finalize (mergeTable options start) r = .ok file :=
  Session.exists_answer h.concluded.merges hr

/-- **A compilation that may take four rounds succeeds exactly when nothing it attempts is
refused.** -/
theorem compile_ok_iff (hdistinct : ∀ file ∈ inputFiles inputs, file.DistinctNames)
    (hn : 4 ≤ n) :
    (∃ final, compile options n inputs = .ok final) ↔
      GoesThrough options (loadedTable inputs) := by
  refine ⟨?_, ?_⟩
  · intro h
    obtain ⟨final, hfinal⟩ := h
    exact (succeeded_of_compile hdistinct hfinal).goesThrough
  · intro hg
    have hw : (loadedTable inputs).WellFormed := hg.fits.of_append
    have hr := ready_loadedTable hw hdistinct
    rcases State.complete_of_succeeds hr hg n (Or.inl rfl) with ⟨final, hfinal⟩ | ⟨rounds, hlimit⟩
    · exact ⟨final, compile_eq_ok_iff.mpr ⟨hw, hfinal⟩⟩
    · have hends := State.Remaining.complete hr.builtins hw hr.incoming
        (@State.Remaining.start options _) (by omega) hn
      exact absurd hlimit (hends.2.1 rounds)

end

end Session

end ScopeMerge
