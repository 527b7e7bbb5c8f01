import ScopeMerge.Proofs.Outcome

/-!
# How many rounds a compilation takes

Whether a compilation goes through is a matter of what its sources attempt; how long it
takes is a matter of what its merge requests wait for. There are four cases, and
`duration` tells them apart before anything is run:

* nothing is contributed and nothing is merged: the first round is the last;
* the requests are answered in the first round, or there are none: one more round finds
  nothing left;
* the first round puts the requests off, and the second answers them: three rounds;
* the second round puts them off as well, because what was just written looks like a
  contribution to the options: four rounds, as the third round has no new files.

A run is allowed a number of rounds, and it succeeds when it goes through and the number
is not smaller than its duration.
-/

namespace ScopeMerge

open Attempt

namespace Session

namespace State

variable {options : Options} {start : SymbolTable} {state following : State}

/-! ## Runs of a known length -/

/-- A compilation that ends after exactly so many further rounds. -/
inductive Lasts (options : Options) : Nat → State → Prop where
  | last {state final : State} : state.step options = .ok (.ends final) → Lasts options 1 state
  | round {k : Nat} {state following : State} :
      state.step options = .ok (.continues following) → Lasts options k following →
      Lasts options (k + 1) state

theorem Lasts.complete_iff {k : Nat} (h : Lasts options k state) (n : Nat) :
    (∃ final, state.complete options n = .ok final) ↔ k ≤ n := by
  induction h generalizing n with
  | last hstep =>
      cases n with
      | zero => simp [State.complete]
      | succ n => simp [complete_of_ends hstep]
  | round hstep _ ih =>
      cases n with
      | zero => simp [State.complete]
      | succ n =>
          rw [complete_of_continues hstep, ih]
          omega

theorem Lasts.rounds_eq {k : Nat} (h : Lasts options k state) {n : Nat} {final : State}
    (hfinal : state.complete options n = .ok final) : final.rounds = state.rounds + k := by
  induction h generalizing n with
  | last hstep =>
      cases n with
      | zero => exact nomatch hfinal
      | succ n =>
          rw [complete_of_ends hstep] at hfinal
          obtain rfl := Except.ok.inj hfinal
          exact rounds_of_step hstep
  | @round k state following hstep _ ih =>
      cases n with
      | zero => exact nomatch hfinal
      | succ n =>
          rw [complete_of_continues hstep] at hfinal
          have hround : following.rounds = state.rounds + 1 := rounds_of_step hstep
          rw [ih hfinal, hround]
          omega

/-! ## The length of a run that goes through -/

/-- A round that leaves something to do is followed by the others. -/
theorem lasts_of_next (hr : Ready start)
    (h : state = { table := start } ∨ Underway options start state)
    (hs : state.Succeeds options) (hlast : state.isLast options = false) {k : Nat}
    (hnext : Lasts options k (state.next options)) : Lasts options (k + 1) state := by
  have hstep := (step_eq_ok_iff (coherent_of_cases hr h)).mpr ⟨hs, rfl⟩
  rw [hlast, if_neg (by simp)] at hstep
  exact .round hstep hnext

/-- A round that leaves nothing to do is the last. -/
theorem lasts_one (hr : Ready start)
    (h : state = { table := start } ∨ Underway options start state)
    (hs : state.Succeeds options) (hlast : state.isLast options = true) :
    Lasts options 1 state := by
  have hstep := (step_eq_ok_iff (coherent_of_cases hr h)).mpr ⟨hs, rfl⟩
  rw [hlast, if_pos rfl] at hstep
  exact .last hstep

/-- With nothing put off one round is left. -/
theorem lasts_quiet (hr : Ready start) (hg : GoesThrough options start)
    (h : Underway options start state) (hq : state.deferred = []) : Lasts options 1 state :=
  lasts_one hr (Or.inr h) (succeeds_underway hr hg h) (h.isLast_of_quiet hq)

theorem isLast_eq_false_iff :
    state.isLast options = false ↔
      written (state.attempts options) ≠ [] ∨ (state.next options).deferred ≠ [] := by
  unfold isLast
  rw [Bool.and_eq_false_iff]
  simp

/-- Requests have answers, which are read for one more round. -/
theorem merged_ne_nil (hg : GoesThrough options start) (h : requests options start ≠ []) :
    merged options start ≠ [] := by
  obtain ⟨r, rest, hrequests⟩ := List.exists_cons_of_ne_nil h
  have hfirst : ofResult (Merge.finalize (mergeTable options start) r) ∈ answers options start := by
    unfold answers
    rw [hrequests]
    exact List.mem_cons_self
  obtain ⟨files, hfiles⟩ := Option.isSome_iff_exists.mp (hg.merges _ hfirst)
  obtain ⟨file, _, rfl⟩ := ofResult_eq_some_iff.mp hfiles
  rw [hfiles] at hfirst
  exact List.ne_nil_of_mem (mem_written.mpr ⟨[file], hfirst, List.mem_cons_self⟩)

/-- Requests that are put off have names to be remembered by. -/
theorem eraseDups_requests_ne_nil (h : requests options start ≠ []) :
    ((requests options start).map (·.name)).eraseDups ≠ [] := by
  obtain ⟨r, rest, hrequests⟩ := List.exists_cons_of_ne_nil h
  refine List.ne_nil_of_mem (List.mem_eraseDups.mpr (List.mem_map_of_mem (a := r) ?_))
  rw [hrequests]
  exact List.mem_cons_self

/-- Requests that were put off are answered, and one more round finds nothing left. -/
theorem lasts_two (hr : Ready start) (hg : GoesThrough options start)
    (h : Underway options start state) (ha : Awaiting options start state)
    (hrequests : requests options start ≠ []) (hwaits : Round.waits options state.current = false) :
    Lasts options 2 state := by
  have hs := succeeds_underway hr hg h
  have hattempts := attempts_awaiting hr h.toSettled ha
  have hdeferred := deferred_next options state
  rw [hwaits, if_neg (by simp)] at hattempts hdeferred
  refine lasts_of_next hr (Or.inr h) hs (isLast_eq_false_iff.mpr (Or.inl ?_))
    (lasts_quiet hr hg (underway_next hr h hs) hdeferred)
  rw [hattempts]
  exact merged_ne_nil hg hrequests

/-- If they are put off once more, there are no new files to put them off again. -/
theorem lasts_three (hr : Ready start) (hg : GoesThrough options start)
    (h : Underway options start state) (ha : Awaiting options start state)
    (hrequests : requests options start ≠ []) (hwaits : Round.waits options state.current = true) :
    Lasts options 3 state := by
  have hs := succeeds_underway hr hg h
  have hattempts := attempts_awaiting hr h.toSettled ha
  have hdeferred := deferred_next options state
  rw [hwaits, if_pos rfl] at hattempts hdeferred
  rw [requests_awaiting hr h.toSettled ha] at hdeferred
  have hput := eraseDups_requests_ne_nil hrequests
  rw [← hdeferred] at hput
  have hnext := underway_next hr h hs
  have hunfed : (state.next options).table.incoming = [] := by
    rw [incoming_next, hattempts]
    rfl
  refine lasts_of_next hr (Or.inr h) hs (isLast_eq_false_iff.mpr (Or.inr hput)) ?_
  rcases hnext.phase with ha' | hc
  · exact lasts_two hr hg hnext ha' hrequests (waits_of_unfed hunfed)
  · exact absurd hc.deferred hput

end State

variable {options : Options} {start : SymbolTable}

/-- How many rounds a compilation takes that goes through. -/
def duration (options : Options) (start : SymbolTable) : Nat :=
  if emitted options start = [] ∧ requests options start = [] then 1
  else if waits options start ∧ requests options start ≠ [] then
    if Round.waits options (State.next options { table := start }).current then 4 else 3
  else 2

open State in
/-- **A compilation that goes through takes as many rounds as foreseen.** -/
theorem lasts_duration (hr : Ready start) (hg : GoesThrough options start) :
    State.Lasts options (duration options start) { table := start } := by
  have hs := succeeds_start hr hg
  have hnext := underway_of_start hr hs
  have hattempts := @attempts_start options start hr
  have hdeferred := deferred_next options { table := start }
  have hround : Round.waits options (current { table := start }) = waits options start := rfl
  have hlook : Round.requests options (current { table := start })
      ({ table := start } : State).workspace.processed = requests options start := requests_start hr
  rw [hround, hlook] at hdeferred
  unfold duration
  split
  · next hidle =>
    -- nothing is attempted that leaves a trace
    have hanswers : answers options start = [] := by
      unfold answers
      rw [hidle.2]
      rfl
    refine lasts_one hr (Or.inl rfl) hs ?_
    unfold isLast
    rw [hdeferred, hattempts, hidle.2, hanswers, ite_self, List.append_nil]
    have hemitted : written (emissions options start) = [] := hidle.1
    rw [hemitted]
    simp
  · next hbusy =>
    split
    · next hput =>
      obtain ⟨hwaits, hrequests⟩ := hput
      rw [hwaits, if_pos rfl] at hdeferred
      have hne := eraseDups_requests_ne_nil hrequests
      rw [← hdeferred] at hne
      have ha : Awaiting options start (next options { table := start }) :=
        hnext.phase.resolve_right fun hc => hne hc.deferred
      split
      · next hagain =>
        exact lasts_of_next hr (Or.inl rfl) hs (isLast_eq_false_iff.mpr (Or.inr hne))
          (lasts_three hr hg hnext ha hrequests hagain)
      · next hagain =>
        exact lasts_of_next hr (Or.inl rfl) hs (isLast_eq_false_iff.mpr (Or.inr hne))
          (lasts_two hr hg hnext ha hrequests (by simpa using hagain))
    · next hdone =>
      -- nothing is put off, and something is written
      have hquiet : (next options { table := start }).deferred = [] := by
        rw [hdeferred]
        split
        · next hwaits =>
          have hnone : requests options start = [] := by
            by_contra hrequests
            exact hdone ⟨hwaits, hrequests⟩
          rw [hnone]
          rfl
        · rfl
      refine lasts_of_next hr (Or.inl rfl) hs (isLast_eq_false_iff.mpr (Or.inl ?_))
        (lasts_quiet hr hg hnext hquiet)
      rw [hattempts, written_append]
      intro hwritten
      obtain ⟨hemitted, hrest⟩ := List.append_eq_nil_iff.mp hwritten
      have hrequests : requests options start ≠ [] := fun hnone => hbusy ⟨hemitted, hnone⟩
      rw [if_neg fun hwaits => hdone ⟨hwaits, hrequests⟩] at hrest
      exact merged_ne_nil hg hrequests hrest

variable {inputs : List Input} {n : Nat}

/-- **A compilation succeeds exactly when nothing it attempts is refused and it is allowed the
rounds it takes.** -/
theorem compile_ok_iff_duration (hdistinct : ∀ file ∈ inputFiles inputs, file.DistinctNames) :
    (∃ final, compile options n inputs = .ok final) ↔
      GoesThrough options (loadedTable inputs) ∧ duration options (loadedTable inputs) ≤ n := by
  refine ⟨?_, ?_⟩
  · intro h
    obtain ⟨final, hfinal⟩ := h
    have hs := succeeded_of_compile hdistinct hfinal
    obtain ⟨_, hcomplete⟩ := compile_eq_ok_iff.mp hfinal
    exact ⟨hs.goesThrough,
      ((lasts_duration hs.ready hs.goesThrough).complete_iff n).mp ⟨final, hcomplete⟩⟩
  · intro h
    obtain ⟨hg, hn⟩ := h
    have hw : (loadedTable inputs).WellFormed := hg.fits.of_append
    obtain ⟨final, hcomplete⟩ :=
      ((lasts_duration (ready_loadedTable hw hdistinct) hg).complete_iff n).mpr hn
    exact ⟨final, compile_eq_ok_iff.mpr ⟨hw, hcomplete⟩⟩

/-- The rounds that a successful compilation counts are the foreseen ones. -/
theorem rounds_of_compile (hdistinct : ∀ file ∈ inputFiles inputs, file.DistinctNames)
    {final : State} (h : compile options n inputs = .ok final) :
    final.rounds = duration options (loadedTable inputs) := by
  have hs := succeeded_of_compile hdistinct h
  obtain ⟨_, hcomplete⟩ := compile_eq_ok_iff.mp h
  rw [(lasts_duration hs.ready hs.goesThrough).rounds_eq hcomplete]
  exact Nat.zero_add _

end Session

end ScopeMerge
