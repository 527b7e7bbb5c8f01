import ScopeMerge.Proofs.Rounds

/-!
# Every compilation ends within four rounds

The loop over rounds has no measure of its own: what counts down is how much can
still happen.

* In the first round every source is delivered, so afterwards the recording
  processors have taken all they ever will (`Settled`). What is generated never
  counts, because it is inert.
* From then on only the merge sweep acts. It puts requests off only while a new
  file declares a contribution, and a round that puts off writes nothing. So the
  round after it has no new files and puts nothing off.
* A round that puts nothing off leaves nothing to deliver, so the next one is the
  last.

`Remaining` counts these stages, whichever annotations the options or the markers
register: four rounds in front of the first one, then three, two and one.
-/

namespace ScopeMerge

open Vocabulary Attempt

/-- A declaration of a source, as the table finds it. -/
def SymbolTable.Lists (table : SymbolTable) (d : Declaration) : Prop :=
  ∃ file ∈ table.localFiles, ∃ e ∈ file.declarations, table.find? e.name = some d

namespace Session.State

variable {options : Options} {start : SymbolTable} {state : State}

/-- Whatever is delivered under an annotation that only inputs carry comes from a source. -/
theorem Coherent.delivered_cases (h : Coherent start state) {n : Name} (hn : n ∈ inputOnly)
    {d : Declaration} (hd : d ∈ state.current.delivered n) :
    ∃ file ∈ start.localFiles, (∃ e ∈ file.declarations, start.find? e.name = some d) ∧
      (file.id ∈ state.table.incoming ∨ d.name ∈ state.deferred) ∧ d.isAnnotatedWith n = true := by
  obtain ⟨file, hfile, ⟨e, he, hfind⟩, hdue, hannotated⟩ := SymbolTable.mem_delivered_iff.mp hd
  have hlocal : file ∈ start.localFiles ++ state.workspace.output.files := by
    rw [← h.localFiles]
    exact hfile
  rcases List.mem_append.mp hlocal with hsource | hgenerated
  · refine ⟨file, hsource, ⟨e, he, ?_⟩, hdue, hannotated⟩
    obtain ⟨found, hfound⟩ := SymbolTable.exists_find?_of_mem
      (SymbolTable.mem_declarations_iff.mpr ⟨file, SymbolTable.localFiles_subset hsource, he⟩)
    rw [h.extends.find?_mono hfound] at hfind
    rw [hfound, hfind]
  · -- a generated file declares nothing with such an annotation
    rw [SymbolTable.find?_eq_lastNamed? h.extends.wellFormed
      (h.extends.extra_subset hgenerated) he] at hfind
    have hinert := h.inert file hgenerated d (SymbolTable.lastNamed?_eq_some hfind).1
    rw [hinert.annotations n hn] at hannotated
    exact nomatch hannotated

/-! ## Nothing left to record -/

/-- The recording processors have taken all they ever will. -/
structure Settled (options : Options) (start : SymbolTable) (state : State) : Prop
    extends Coherent start state where
  /-- Every declaration of a source was taken under each of its annotations. -/
  taken : ∀ processor ∈ Round.recording options,
    ∀ entry ∈ processor.takes state.workspace.taken, ∀ d, start.Lists d →
      d.isAnnotatedWith entry.1 = true → d.name ∈ entry.2
  /-- New files are generated files. -/
  incoming : ∀ id ∈ state.table.incoming, ∃ file ∈ state.workspace.output.files, file.id = id

theorem Settled.done (h : Settled options start state) {processor : Processor}
    (hp : processor ∈ Round.recording options) :
    processor.Done state.current state.workspace.taken := by
  intro entry hentry d hd
  obtain ⟨file, hfile, hfound, _, hannotated⟩ :=
    h.delivered_cases (Processor.mem_inputOnly_of_takes hentry) hd
  exact h.taken processor hp entry hentry d ⟨file, hfile, hfound⟩ hannotated

theorem Settled.attempts_eq (h : Settled options start state) :
    state.attempts options =
      Round.mergeAttempts options state.current state.workspace.processed := by
  unfold attempts Round.attempts
  rw [Round.recordAttempts_of_done fun p hp => h.done hp, List.nil_append]

/-- What a round writes is new in the round after it. -/
theorem incoming_next (options : Options) (state : State) :
    (state.next options).table.incoming = (written (state.attempts options)).map (·.id) := by
  unfold next SymbolTable.append current SymbolTable.beginRound
  simp

theorem exists_of_mem_incoming_next
    (hclean : (state.next options).workspace.output.hasErrors = false) :
    ∀ id ∈ (state.next options).table.incoming,
      ∃ file ∈ (state.next options).workspace.output.files, file.id = id := by
  intro id hid
  rw [incoming_next] at hid
  obtain ⟨file, hfile, rfl⟩ := List.mem_map.mp hid
  exact ⟨file, by rw [files_next hclean]; exact List.mem_append_right _ hfile, rfl⟩

theorem settled_next (hb : start.SeesBuiltins) (h : Settled options start state)
    (hs : state.Succeeds options) : Settled options start (state.next options) where
  toCoherent := coherent_next hb h.toCoherent hs
  incoming := exists_of_mem_incoming_next (coherent_next hb h.toCoherent hs).clean
  taken := by
    intro p hp
    have htakes : p.takes (state.next options).workspace.taken
        = p.takes state.workspace.taken := by
      unfold next
      rw [Round.takes_run (Round.ne_merge_of_recording hp),
        Round.recordAll_of_done fun q hq => h.done hq]
    rw [htakes]
    exact h.taken p hp

/-- **The first round settles a compilation**, because it delivers every source. -/
theorem settled_of_start (hb : start.SeesBuiltins) (hw : start.WellFormed)
    (hincoming : start.incoming = start.localFiles.map (·.id))
    (hs : State.Succeeds options { table := start }) :
    Settled options start (State.next options { table := start }) where
  toCoherent := coherent_next hb (coherent_start hw) hs
  incoming := exists_of_mem_incoming_next (coherent_next hb (coherent_start hw) hs).clean
  taken := by
    intro p hp entry hentry d hd hannotated
    obtain ⟨file, hfile, hfound⟩ := hd
    unfold next at hentry
    rw [Round.takes_run (Round.ne_merge_of_recording hp)] at hentry
    refine Round.done_recordAll hp entry hentry d (SymbolTable.mem_delivered_iff.mpr
      ⟨file, hfile, hfound, Or.inl ?_, hannotated⟩)
    have hin : file.id ∈ start.incoming := by
      rw [hincoming]
      exact List.mem_map_of_mem hfile
    exact hin

/-! ## What the merge sweep can still do -/

/-- A round that puts something off writes nothing. -/
theorem Settled.unfed_or_quiet (h : Settled options start state) :
    (state.next options).table.incoming = [] ∨ (state.next options).deferred = [] := by
  unfold next
  rw [h.attempts_eq]
  unfold Round.mergeAttempts Round.pending
  cases Round.waits options state.current with
  | false => exact Or.inr rfl
  | true =>
      refine Or.inl ?_
      unfold SymbolTable.append current SymbolTable.beginRound
      simp [written]

/-- Without new files nothing is put off. -/
theorem waits_of_unfed (h : state.table.incoming = []) :
    Round.waits options state.current = false := by
  have hfiles : state.current.introducedFiles = [] := by
    unfold SymbolTable.introducedFiles current SymbolTable.beginRound
    rw [h, List.mergeSort_nil]
  unfold Round.waits Merge.hasNewContributions SymbolTable.introducedDeclarations
  rw [hfiles]
  rfl

theorem deferred_next_of_unfed (h : state.table.incoming = []) :
    (state.next options).deferred = [] := by
  unfold next Round.pending
  rw [waits_of_unfed h]
  rfl

/-- With nothing put off, no request is delivered any more. -/
theorem Settled.requests_of_quiet (h : Settled options start state) (hq : state.deferred = []) :
    Round.requests options state.current state.workspace.processed = [] := by
  have hdelivered : state.current.delivered mergeComponent = [] := by
    rw [List.eq_nil_iff_forall_not_mem]
    intro d hd
    obtain ⟨file, hfile, _, hdue, _⟩ := h.delivered_cases (n := mergeComponent) (by decide) hd
    rcases hdue with hnew | hput
    · -- the new files were generated, and no source has the identity of one of them
      obtain ⟨generated, hgenerated, hid⟩ := h.incoming file.id hnew
      have hw := h.wellFormed
      unfold SymbolTable.WellFormed at hw
      rw [h.files, List.pairwise_append] at hw
      exact (hw.2.2 file (SymbolTable.localFiles_subset hfile) generated hgenerated).1 hid.symm
    · rw [hq] at hput
      exact nomatch hput
  unfold Round.requests Merge.outstanding
  rw [hdelivered]
  exact ite_self _

theorem Settled.isLast_of_quiet (h : Settled options start state) (hq : state.deferred = []) :
    state.isLast options = true := by
  unfold isLast next
  rw [h.attempts_eq]
  unfold Round.mergeAttempts Round.pending
  rw [h.requests_of_quiet hq]
  cases Round.waits options state.current <;> rfl

/-- How many rounds a compilation can still take. -/
inductive Remaining (options : Options) (start : SymbolTable) : Nat → State → Prop where
  /-- No round was run yet. -/
  | start : Remaining options start 4 { table := start }
  /-- Only the merge sweep acts. -/
  | settled {state : State} : Settled options start state → Remaining options start 3 state
  /-- Nothing was generated in the last round. -/
  | unfed {state : State} : Settled options start state → state.table.incoming = [] →
      Remaining options start 2 state
  /-- Nothing was put off in the last round. -/
  | quiet {state : State} : Settled options start state → state.deferred = [] →
      Remaining options start 1 state

/-- Between two rounds a compilation is coherent. -/
theorem Remaining.coherent (hw : start.WellFormed) {k : Nat} (h : Remaining options start k state) :
    Coherent start state := by
  cases h with
  | start => exact coherent_start hw
  | settled hs => exact hs.toCoherent
  | unfed hs _ => exact hs.toCoherent
  | quiet hs _ => exact hs.toCoherent

/-- **Every round but the last one leaves fewer rounds to go.** -/
theorem Remaining.step (hb : start.SeesBuiltins) (hw : start.WellFormed)
    (hincoming : start.incoming = start.localFiles.map (·.id)) {k : Nat}
    (h : Remaining options start k state) {following : State}
    (hstep : state.step options = .ok (.continues following)) :
    ∃ j < k, 0 < j ∧ Remaining options start j following := by
  obtain ⟨hs, hprogress⟩ := (step_eq_ok_iff (h.coherent hw)).mp hstep
  cases hlast : state.isLast options with
  | true =>
      rw [hlast, if_pos rfl] at hprogress
      exact nomatch hprogress
  | false =>
      rw [hlast, if_neg (by simp)] at hprogress
      obtain rfl := Progress.continues.inj hprogress
      cases h with
      | start =>
          exact ⟨3, by omega, by omega, .settled (settled_of_start hb hw hincoming hs)⟩
      | settled hsettled =>
          have hnext := settled_next hb hsettled hs
          rcases hsettled.unfed_or_quiet with hunfed | hquiet
          · exact ⟨2, by omega, by omega, .unfed hnext hunfed⟩
          · exact ⟨1, by omega, by omega, .quiet hnext hquiet⟩
      | unfed hsettled hunfed =>
          exact ⟨1, by omega, by omega,
            .quiet (settled_next hb hsettled hs) (deferred_next_of_unfed hunfed)⟩
      | quiet hsettled hquiet =>
          rw [hsettled.isLast_of_quiet hquiet] at hlast
          exact nomatch hlast

/-! ## Whole runs -/

theorem step_ne_roundLimit (options : Options) (state : State) (rounds : Nat) :
    state.step options ≠ .error (.roundLimit rounds) := by
  rw [step_eq]
  intro h
  split at h
  · exact nomatch h
  · split at h <;> exact nomatch h

/-- The state a round leads to, the last one or not. -/
def reached : Progress → State
  | .continues state => state
  | .ends state => state

theorem rounds_of_step {progress : Progress} (hstep : state.step options = .ok progress) :
    (reached progress).rounds = state.rounds + 1 := by
  rw [step_eq] at hstep
  split at hstep
  · exact nomatch hstep
  · split at hstep
    · exact nomatch hstep
    · obtain rfl := Except.ok.inj hstep
      split <;> rfl

theorem complete_of_error {n : Nat} {error : SessionError}
    (h : state.step options = .error error) : state.complete options (n + 1) = .error error := by
  rw [State.complete, h]

theorem complete_of_ends {n : Nat} {final : State} (h : state.step options = .ok (.ends final)) :
    state.complete options (n + 1) = .ok final := by
  rw [State.complete, h]

theorem complete_of_continues {n : Nat} {following : State}
    (h : state.step options = .ok (.continues following)) :
    state.complete options (n + 1) = following.complete options n := by
  rw [State.complete, h]

/-- What is true of a run that has at most so many rounds to go. -/
theorem Remaining.complete (hb : start.SeesBuiltins) (hw : start.WellFormed)
    (hincoming : start.incoming = start.localFiles.map (·.id)) {k n : Nat}
    (h : Remaining options start k state) (hk : 0 < k) (hkn : k ≤ n) :
    state.complete options n = state.complete options k ∧
      (∀ rounds, state.complete options n ≠ .error (.roundLimit rounds)) ∧
      ∀ final, state.complete options n = .ok final → final.rounds ≤ state.rounds + k := by
  induction k using Nat.strong_induction_on generalizing state n with
  | _ k ih =>
      obtain ⟨k, rfl⟩ : ∃ k', k = k' + 1 := ⟨k - 1, by omega⟩
      obtain ⟨n, rfl⟩ : ∃ n', n = n' + 1 := ⟨n - 1, by omega⟩
      -- one round, and then at least one less to go
      cases hstep : state.step options with
      | error error =>
          rw [complete_of_error hstep, complete_of_error hstep]
          refine ⟨rfl, fun rounds herror => ?_, fun final hfinal => nomatch hfinal⟩
          rw [Except.error.inj herror] at hstep
          exact step_ne_roundLimit options state rounds hstep
      | ok progress =>
          have hround := rounds_of_step hstep
          cases progress with
          | ends final =>
              rw [complete_of_ends hstep, complete_of_ends hstep]
              refine ⟨rfl, fun rounds => ?_, fun found hfound => ?_⟩
              · intro herror
                exact nomatch herror
              · have hone : final.rounds = state.rounds + 1 := hround
                rw [← Except.ok.inj hfound, hone]
                omega
          | continues following =>
              rw [complete_of_continues hstep, complete_of_continues hstep]
              obtain ⟨j, hjk, hj, hfollowing⟩ := h.step hb hw hincoming hstep
              obtain ⟨hsame, hlimit, hrounds⟩ := ih j hjk hfollowing hj (n := n) (by omega)
              obtain ⟨hsame', _, _⟩ := ih j hjk hfollowing hj (n := k) (by omega)
              refine ⟨hsame.trans hsame'.symm, hlimit, fun final hfinal => ?_⟩
              have hcount := hrounds final hfinal
              have hone : following.rounds = state.rounds + 1 := hround
              omega

end Session.State

namespace Session

/-- **A compilation that may take four rounds is never stopped.** It ends within four rounds, with
a result or with an error, and the answer is the same as if it were allowed no more than four. -/
theorem run_ends_within_four {options : Options} {maxRounds : Nat} {inputs : List Input}
    {session : Session} (hload : ({ options, maxRounds } : Session).addAll inputs = .ok session)
    (hmax : 4 ≤ maxRounds) :
    (∀ rounds, session.run ≠ .error (.roundLimit rounds)) ∧
      (∀ result, session.run = .ok result → result.rounds ≤ 4) ∧
      session.run = ({ session with maxRounds := 4 } : Session).run := by
  obtain ⟨hsession, hw⟩ := (addAll_eq_ok_iff SymbolTable.initial_wellFormed).mp hload
  rw [hsession] at hw ⊢
  obtain ⟨hsame, hlimit, hrounds⟩ := State.Remaining.complete (seesBuiltins_loadedTable inputs) hw
    (incoming_loadedTable inputs) (@State.Remaining.start options _) (by omega) hmax
  have hrun : ∀ n, ({ table := loadedTable inputs, options, maxRounds := n } : Session).run
      = (State.complete options n { table := loadedTable inputs }).map State.result :=
    fun _ => rfl
  refine ⟨fun rounds herror => ?_, fun result hresult => ?_, (hrun _).trans ?_⟩
  · have herror := (hrun _).symm.trans herror
    cases hcomplete : State.complete options maxRounds { table := loadedTable inputs } with
    | error error =>
        rw [hcomplete] at herror
        exact hlimit rounds (by rw [hcomplete, Except.error.inj herror])
    | ok final =>
        rw [hcomplete] at herror
        exact nomatch herror
  · have hresult := (hrun _).symm.trans hresult
    cases hcomplete : State.complete options maxRounds { table := loadedTable inputs } with
    | error error =>
        rw [hcomplete] at hresult
        exact nomatch hresult
    | ok final =>
        rw [hcomplete] at hresult
        obtain rfl := Except.ok.inj hresult
        have hfinal : final.rounds ≤ 0 + 4 := hrounds final hcomplete
        unfold State.result
        dsimp only
        omega
  · rw [hsame]
    exact (hrun 4).symm

/-- The bound holds of the sample even if lookups count as contributions themselves. -/
theorem run_ends_with_lookups_registered :
    let options : Options := { contributingAnnotations := [contributionScope] }
    ∃ session, ({ options, maxRounds := 4 } : Session).addAll Sample.inputs = .ok session ∧
      4 ≤ session.maxRounds ∧ ∀ rounds, session.run ≠ .error (.roundLimit rounds) := by
  intro options
  have hload : ({ options, maxRounds := 4 } : Session).addAll Sample.inputs =
      .ok { table := loadedTable Sample.inputs, options, maxRounds := 4 } :=
    (addAll_eq_ok_iff SymbolTable.initial_wellFormed).mpr ⟨rfl, Sample.wellFormed⟩
  exact ⟨_, hload, Nat.le_refl 4, (run_ends_within_four hload (Nat.le_refl 4)).1⟩

end Session

end ScopeMerge
