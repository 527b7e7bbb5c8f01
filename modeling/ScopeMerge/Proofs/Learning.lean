import ScopeMerge.Proofs.Accepting
import ScopeMerge.Proofs.Reporting
import ScopeMerge.Proofs.Separate

/-!
# What a session learns stays with it

The registry is assembled anew in every round, so nothing in it lasts by itself. The
built-in annotations and those of the options are there every time, and what a marker
records is there as long as the marker is visible. A custom annotation class is read
directly in the round that delivers it, and in no other; from then on only its marker
stands for it. The handover needs an argument:

* Tables only grow at their end, `entries <+: entries`, and then what a name finds it
  finds for good.
* `KeepsTaken` is the invariant between two rounds: whatever the processor has taken has
  a marker among the local files. What a round delivers was taken before, or is taken
  now and its marker is written, so the round after it sees the marker either way
  (`exists_marker_of_delivered`).
* A unit lists each declaration as a name finds it, so the marker is visible to whoever
  is given the unit (`mem_visible_of_handed_on`).
-/

namespace ScopeMerge

open Vocabulary

/-! ## Tables that grow -/

namespace SymbolTable

variable {table later extended : SymbolTable} {fs : List SourceFile} {isLocal : Bool}
  {name : Name} {d : Declaration}

theorem entries_prefix_append (table : SymbolTable) (fs : List SourceFile) (isLocal : Bool) :
    table.entries <+: (table.append fs isLocal).entries :=
  List.prefix_append _ _

/-- What a name finds it finds for good. -/
theorem find?_of_prefix (h : table.entries <+: later.entries) (hfind : table.find? name = some d) :
    later.find? name = some d := by
  obtain ⟨added, hadded⟩ := h
  unfold find? at hfind ⊢
  rw [← hadded, List.findSome?_append, hfind, Option.some_or]

theorem visible_subset_of_prefix (h : table.entries <+: later.entries) :
    table.visible ⊆ later.visible := by
  obtain ⟨added, hadded⟩ := h
  unfold visible
  rw [← hadded, List.flatMap_append]
  exact List.subset_append_left _ _

theorem mem_visible_of_find? (h : table.find? name = some d) : d ∈ table.visible := by
  obtain ⟨entry, hentry, hlast⟩ := List.exists_of_findSome?_eq_some h
  refine List.mem_flatMap.mpr ⟨entry, hentry, mem_lastOfEachName_iff.mpr ?_⟩
  rw [(lastNamed?_eq_some hlast).2]
  exact hlast

/-- Files that go in are appended, and each of their names finds the last declaration of its
file. -/
theorem eq_append_of_addFiles (h : table.addFiles isLocal fs = (extended, none)) :
    extended = table.append fs isLocal ∧ ∀ file ∈ fs, ∀ d ∈ file.declarations,
      extended.find? d.name = lastNamed? d.name file.declarations := by
  induction fs generalizing table with
  | nil =>
      obtain ⟨rfl, _⟩ := Prod.mk.inj h
      exact ⟨(append_nil table isLocal).symm, fun file hfile => absurd hfile List.not_mem_nil⟩
  | cons file rest ih =>
      rw [addFiles] at h
      cases hadd : table.addFile file isLocal with
      | error error =>
          rw [hadd] at h
          cases h
      | ok grown =>
          rw [hadd] at h
          obtain ⟨hapart, rfl⟩ := addFile_eq_ok_iff.mp hadd
          obtain ⟨rfl, hrest⟩ := ih h
          refine ⟨append_append table [file] rest isLocal,
            List.forall_mem_cons.mpr ⟨fun d hd => ?_, hrest⟩⟩
          have hfound : (table.append [file] isLocal).find? d.name =
              lastNamed? d.name file.declarations := find?_append_of_apart hapart hd
          cases hlast : lastNamed? d.name file.declarations with
          | none => exact absurd rfl (lastNamed?_eq_none_iff.mp hlast d hd)
          | some last =>
              rw [hlast] at hfound
              exact find?_of_prefix (entries_prefix_append _ rest isLocal) hfound

theorem eq_append_of_addUnit {unit : CompilationUnit}
    (h : table.addUnit unit isLocal = .ok extended) :
    extended = table.append unit.files isLocal ∧ ∀ file ∈ unit.files, ∀ d ∈ file.declarations,
      extended.find? d.name = lastNamed? d.name file.declarations := by
  unfold addUnit at h
  split at h
  · next hadd =>
    obtain rfl := Except.ok.inj h
    exact eq_append_of_addFiles hadd
  · exact nomatch h

/-! ## What a compilation hands on -/

theorem mem_localUnit_iff : d ∈ table.localUnit.declarations ↔
    ∃ entry ∈ table.entries, entry.isLocal = true ∧ d ∈ table.listed entry := by
  unfold CompilationUnit.declarations localUnit
  simp only [List.mem_flatMap, List.mem_map, List.mem_filter]
  refine ⟨?_, ?_⟩
  · rintro ⟨_, ⟨entry, ⟨hentry, hlocal⟩, rfl⟩, hd⟩
    exact ⟨entry, hentry, hlocal, hd⟩
  · rintro ⟨entry, hentry, hlocal, hd⟩
    exact ⟨_, ⟨entry, ⟨hentry, hlocal⟩, rfl⟩, hd⟩

theorem find?_of_listed {entry : Entry} (h : d ∈ table.listed entry) :
    table.find? d.name = some d := by
  obtain ⟨e, _, hfind⟩ := List.mem_filterMap.mp h
  rw [(find?_eq_some hfind).2]
  exact hfind

theorem localUnit_subset_of_prefix (h : table.entries <+: later.entries) :
    table.localUnit.declarations ⊆ later.localUnit.declarations := by
  intro d hd
  obtain ⟨entry, hentry, hlocal, hlisted⟩ := mem_localUnit_iff.mp hd
  obtain ⟨e, he, hfind⟩ := List.mem_filterMap.mp hlisted
  exact mem_localUnit_iff.mpr ⟨entry, h.subset hentry, hlocal,
    List.mem_filterMap.mpr ⟨e, he, find?_of_prefix h hfind⟩⟩

theorem mem_visible_of_localUnit (h : d ∈ table.localUnit.declarations) : d ∈ table.visible := by
  obtain ⟨entry, _, _, hlisted⟩ := mem_localUnit_iff.mp h
  exact mem_visible_of_find? (find?_of_listed hlisted)

/-- A list of declarations as they are found repeats no name with another meaning. -/
theorem lastNamed?_listed {entry : Entry} (h : d ∈ table.listed entry) :
    lastNamed? d.name (table.listed entry) = some d := by
  cases hlast : lastNamed? d.name (table.listed entry) with
  | none => exact absurd rfl (lastNamed?_eq_none_iff.mp hlast d h)
  | some e =>
      obtain ⟨he, hname⟩ := lastNamed?_eq_some hlast
      rw [← find?_of_listed he, hname, find?_of_listed h]

/-- **What a compilation hands on is visible** wherever its unit is added. -/
theorem mem_visible_of_handed_on (hd : d ∈ table.localUnit.declarations)
    (h : later.addUnit table.localUnit isLocal = .ok extended) : d ∈ extended.visible := by
  obtain ⟨file, hfile, hmem⟩ := List.mem_flatMap.mp hd
  obtain ⟨entry, _, rfl⟩ := List.mem_map.mp hfile
  have hfind : extended.find? d.name = some d := by
    rw [(eq_append_of_addUnit h).2 _ hfile d hmem]
    exact lastNamed?_listed hmem
  exact mem_visible_of_find? hfind

end SymbolTable

/-! ## Markers -/

theorem Contribution.registers_markerOf (d : Declaration) : (markerOf d).Registers d.name where
  package := rfl
  topLevel := rfl
  kind := rfl
  origin := rfl

namespace Registry

variable {options : Options} {table later : SymbolTable} {n : Name}

theorem marked_subset_of_prefix (h : table.entries <+: later.entries) :
    marked table ⊆ marked later := by
  intro n hn
  obtain ⟨d, hd, hregisters⟩ := mem_marked_iff.mp hn
  exact mem_marked_iff.mpr ⟨d, SymbolTable.visible_subset_of_prefix h hd, hregisters⟩

theorem contains_of_mem_marked (h : n ∈ marked table) :
    (assemble options table).contains n = true :=
  contains_assemble_iff.mpr (List.mem_append_left _ (List.mem_append_right _ h))

/-- What is registered in a round for whatever reason but that it is delivered is registered in
every table that the table of the round grows into. -/
theorem contains_of_prefix (h : table.entries <+: later.entries)
    (hcontains : (assemble options table).contains n = true) (hfresh : n ∉ fresh table) :
    (assemble options later).contains n = true := by
  rw [contains_assemble_iff] at hcontains ⊢
  have hlasting := (List.mem_append.mp hcontains).resolve_right hfresh
  refine List.mem_append_left _ (List.mem_append.mpr ?_)
  exact (List.mem_append.mp hlasting).imp_right fun hn => marked_subset_of_prefix h hn

end Registry

/-! ## One round -/

namespace Round

variable {options : Options} {table : SymbolTable} {workspace : Workspace}

theorem mem_recording_of_enabled {processor : Processor} (h : processor ∈ recorders)
    (henabled : options.isDisabled processor.id = false) : processor ∈ recording options :=
  List.mem_filter.mpr ⟨h, by rw [henabled]; rfl⟩

/-- The annotation classes that count as taken after a round. -/
theorem annotations_run
    (henabled : options.isDisabled Processor.contributingAnnotations.id = false) :
    (run options table workspace).1.taken.annotations =
      takenAfter workspace.taken.annotations (table.delivered contributingAnnotation) := by
  -- the processor is the first one, and what it took is left alone by the others
  have hfirst : recording options = .contributingAnnotations ::
      (recorders.tail.filter fun processor => !options.isDisabled processor.id) :=
    List.filter_cons_of_pos (by rw [henabled]; rfl)
  have hnot : Processor.contributingAnnotations ∉
      recorders.tail.filter fun processor => !options.isDisabled processor.id :=
    fun hmem => absurd (List.mem_of_mem_filter hmem) (by decide)
  have htakes : Processor.contributingAnnotations.takes (run options table workspace).1.taken =
      Processor.contributingAnnotations.takes
        (Processor.contributingAnnotations.run options table workspace).1.taken := by
    rw [takes_run (by decide)]
    unfold recordAll
    rw [hfirst, List.foldl_cons, takes_foldl_run hnot]
  have hsame : (run options table workspace).1.taken.annotations =
      (Processor.contributingAnnotations.run options table workspace).1.taken.annotations :=
    (Prod.mk.inj (List.cons.inj htakes).1).2
  rw [hsame]
  unfold Processor.run
  dsimp only
  rw [takeEach_eq]

/-- The marker of an annotation class that a round takes is written, if nothing goes wrong. -/
theorem mem_written_marker
    (henabled : options.isDisabled Processor.contributingAnnotations.id = false)
    (hall : Attempt.AllSucceed (attempts options table workspace)) {d : Declaration}
    (hd : d ∈ untaken workspace.taken.annotations (table.delivered contributingAnnotation)) :
    SourceFile.generated (Contribution.markerOf d) ∈
      Attempt.written (attempts options table workspace) := by
  have hattempt : Attempt.ofOutcome (Contribution.markers d) ∈
      attempts options table workspace :=
    List.mem_append_left _ (List.mem_flatMap.mpr ⟨.contributingAnnotations,
      mem_recording_of_enabled (by decide) henabled, List.mem_map_of_mem hd⟩)
  obtain ⟨files, hfiles⟩ := Option.isSome_iff_exists.mp (hall _ hattempt)
  obtain ⟨es, hes, rfl⟩ := Attempt.ofOutcome_eq_some_iff.mp hfiles
  rw [Contribution.markers_ok hes] at hfiles
  rw [hfiles] at hattempt
  exact Attempt.mem_written.mpr ⟨_, hattempt, List.mem_singleton_self _⟩

end Round

namespace Session.State

variable {options : Options} {state following first earlier later : State} {progress : Progress}
  {n : Name}

/-- What a round that succeeds leads to. -/
theorem step_ok (h : state.step options = .ok progress) :
    Attempt.AllSucceed (state.attempts options) ∧
      state.current.addUnit { files := Attempt.written (state.attempts options) } true =
        .ok (reached progress).table ∧
      (reached progress).workspace = (Round.run options state.current state.workspace).1 := by
  rw [step_eq] at h
  split at h
  · exact nomatch h
  · next hclean =>
    rw [Bool.not_eq_true] at hclean
    have hall : Attempt.AllSucceed (state.attempts options) :=
      ((Round.run_writes options state.current state.workspace).clean_iff.mp hclean).2.1
    rw [files_next hclean, List.drop_left] at h
    split at h
    · exact nomatch h
    · next extended hextended =>
      obtain rfl := Except.ok.inj h
      refine ⟨hall, ?_, ?_⟩
      · rw [hextended]
        split <;> rfl
      · split <;> rfl

theorem entries_prefix_step (h : state.step options = .ok progress) :
    state.table.entries <+: (reached progress).table.entries := by
  obtain ⟨_, hadd, _⟩ := step_ok h
  rw [(SymbolTable.eq_append_of_addUnit hadd).1]
  exact SymbolTable.entries_prefix_append state.current _ true

/-- Every annotation class that was taken has its marker among the local files. -/
def KeepsTaken (state : State) : Prop :=
  ∀ n ∈ state.workspace.taken.annotations,
    ∃ d ∈ state.table.localUnit.declarations, d.Registers n

section

variable (henabled : options.isDisabled Processor.contributingAnnotations.id = false)

include henabled

/-- **After the round that delivers an annotation class its marker is there.** -/
theorem exists_marker_of_delivered (hkeeps : state.KeepsTaken)
    (h : state.step options = .ok progress) {d : Declaration}
    (hd : d ∈ state.current.delivered contributingAnnotation) :
    ∃ m ∈ (reached progress).table.localUnit.declarations, m.Registers d.name := by
  by_cases htaken : d.name ∈ state.workspace.taken.annotations
  · obtain ⟨m, hm, hregisters⟩ := hkeeps d.name htaken
    exact ⟨m, SymbolTable.localUnit_subset_of_prefix (entries_prefix_step h) hm, hregisters⟩
  · obtain ⟨hall, hadd, _⟩ := step_ok h
    obtain ⟨happend, hfound⟩ := SymbolTable.eq_append_of_addUnit hadd
    have hwritten := Round.mem_written_marker henabled hall
      (Round.mem_untaken_delivered_iff.mpr ⟨hd, htaken⟩)
    have hfind : (reached progress).table.find? (Contribution.markerOf d).name =
        some (Contribution.markerOf d) := by
      rw [hfound _ hwritten _ List.mem_cons_self]
      simp [SourceFile.generated, lastNamed?]
    refine ⟨Contribution.markerOf d, SymbolTable.mem_localUnit_iff.mpr
      ⟨{ file := .generated (Contribution.markerOf d), isLocal := true }, ?_, rfl,
        List.mem_filterMap.mpr ⟨_, List.mem_cons_self, hfind⟩⟩, Contribution.registers_markerOf d⟩
    rw [happend]
    exact List.mem_append_right _ (List.mem_map_of_mem hwritten)

theorem KeepsTaken.step (hkeeps : state.KeepsTaken)
    (h : state.step options = .ok (.continues following)) : following.KeepsTaken := by
  have hworkspace : following.workspace =
      (Round.run options state.current state.workspace).1 := (step_ok h).2.2
  intro n hn
  rw [hworkspace, Round.annotations_run henabled, Round.mem_takenAfter_iff] at hn
  rcases hn with hold | ⟨d, hd, rfl⟩
  · obtain ⟨m, hm, hregisters⟩ := hkeeps n hold
    exact ⟨m, SymbolTable.localUnit_subset_of_prefix (entries_prefix_step h) hm, hregisters⟩
  · exact exists_marker_of_delivered henabled hkeeps h hd

/-- What is registered in one round is registered in the next. -/
theorem contains_step (hkeeps : state.KeepsTaken)
    (h : state.step options = .ok (.continues following))
    (hcontains : (Registry.assemble options state.current).contains n = true) :
    (Registry.assemble options following.current).contains n = true := by
  by_cases hfresh : n ∈ Registry.fresh state.current
  · obtain ⟨d, hd, rfl⟩ := List.mem_map.mp hfresh
    obtain ⟨m, hm, hregisters⟩ :=
      exists_marker_of_delivered henabled hkeeps h (List.mem_of_mem_filter hd)
    exact Registry.contains_of_mem_marked (Registry.mem_marked_iff.mpr
      ⟨m, SymbolTable.mem_visible_of_localUnit hm, hregisters⟩)
  · have hgrows : state.current.entries <+: following.current.entries := entries_prefix_step h
    exact Registry.contains_of_prefix hgrows hcontains hfresh

/-! ## Whole runs -/

theorem KeepsTaken.reaches (hkeeps : first.KeepsTaken) (h : Reaches options first state) :
    state.KeepsTaken := by
  induction h with
  | refl => exact hkeeps
  | round _ hstep ih => exact ih.step henabled hstep

/-- **What is registered in one round is registered in every later one.** -/
theorem contains_reaches (hkeeps : earlier.KeepsTaken) (h : Reaches options earlier later)
    (hcontains : (Registry.assemble options earlier.current).contains n = true) :
    (Registry.assemble options later.current).contains n = true := by
  induction h with
  | refl => exact hcontains
  | round hbefore hstep ih =>
      exact contains_step henabled (hkeeps.reaches henabled hbefore) hstep ih

end

theorem keepsTaken_start (start : SymbolTable) : KeepsTaken { table := start } :=
  fun _ hn => nomatch hn

theorem entries_prefix_reaches (h : Reaches options earlier later) :
    earlier.table.entries <+: later.table.entries := by
  induction h with
  | refl => exact List.prefix_refl _
  | round _ hstep ih => exact ih.trans (entries_prefix_step hstep)

/-- A run that is over has passed through every state it can reach. -/
theorem exists_step_of_reaches {last final : State} (h : Reaches options first state)
    (hlast : Reaches options first last) (hends : last.step options = .ok (.ends final)) :
    ∃ progress, state.step options = .ok progress ∧
      (reached progress).table.entries <+: final.table.entries := by
  -- from whatever is reached, the last state is still ahead
  have hahead : Reaches options state last := by
    induction h with
    | refl => exact hlast
    | @round before following _ hstep ih =>
        rcases ih.cases_head with rfl | ⟨second, hsecond, hrest⟩
        · rw [hends] at hstep
          exact nomatch hstep
        · rw [hstep] at hsecond
          obtain rfl := Progress.continues.inj (Except.ok.inj hsecond)
          exact hrest
  have hend : last.table.entries <+: final.table.entries := entries_prefix_step hends
  rcases hahead.cases_head with rfl | ⟨second, hsecond, hrest⟩
  · exact ⟨.ends final, hends, List.prefix_refl _⟩
  · exact ⟨.continues second, hsecond, (entries_prefix_reaches hrest).trans hend⟩

end Session.State

/-! ## From one session to the next -/

namespace Session

open State

variable {options : Options} {session later other loaded : Session} {inputs : List Input}
  {n : Name} {d : Declaration}

/-- A session learns of an annotation from what it compiles itself: in one of its rounds the
annotation class is delivered, or a local file has a marker of it. -/
def Learns (session : Session) (n : Name) : Prop :=
  ∃ state, Reaches session.options { table := session.table } state ∧
    (n ∈ Registry.fresh state.current ∨
      ∃ d ∈ state.current.localUnit.declarations, d.Registers n)

/-- Every custom annotation class among the sources is learned of, in the first round. -/
theorem learns_of_source (hd : d ∈ sourceDeclarations inputs)
    (hvisible : (firstTable inputs).find? d.name = some d)
    (hannotated : d.isAnnotatedWith contributingAnnotation = true)
    (hkind : d.kind = .annotationClass) (options : Options) (maxRounds : Nat) :
    Learns { table := loadedTable inputs, options, maxRounds } d.name :=
  ⟨_, .refl, Or.inl (List.mem_map_of_mem (List.mem_filter.mpr
    ⟨mem_delivered_first hd hvisible hannotated, decide_eq_true hkind⟩))⟩

theorem addUnit_of_add {input : Input} (h : session.add input = .ok later) :
    session.table.addUnit { files := input.files } input.isLocal = .ok later.table := by
  rw [add_eq] at h
  cases hadd : session.table.addUnit { files := input.files } input.isLocal with
  | error error =>
      rw [hadd] at h
      cases h
  | ok extended =>
      rw [hadd] at h
      obtain rfl := Except.ok.inj h
      rfl

theorem entries_prefix_add {input : Input} (h : session.add input = .ok later) :
    session.table.entries <+: later.table.entries := by
  rw [(SymbolTable.eq_append_of_addUnit (addUnit_of_add h)).1]
  exact SymbolTable.entries_prefix_append _ _ _

theorem entries_prefix_addAll (h : session.addAll inputs = .ok later) :
    session.table.entries <+: later.table.entries := by
  induction inputs generalizing session with
  | nil =>
      obtain rfl := Except.ok.inj h
      exact List.prefix_refl _
  | cons input rest ih =>
      rw [addAll] at h
      cases hadd : session.add input with
      | error error =>
          rw [hadd] at h
          cases h
      | ok extended =>
          rw [hadd] at h
          exact (entries_prefix_add hadd).trans (ih h)

/-- What a session learned of has a marker in the unit that it leaves behind. -/
theorem exists_marker_of_learns
    (henabled : session.options.isDisabled Processor.contributingAnnotations.id = false)
    (hlearns : session.Learns n) {final : State} (h : session.complete = .ok final) :
    ∃ d ∈ final.table.localUnit.declarations, d.Registers n := by
  obtain ⟨last, hlast, hends⟩ := exists_last_of_complete h
  obtain ⟨state, hreaches, hknown⟩ := hlearns
  obtain ⟨progress, hstep, hrest⟩ := exists_step_of_reaches hreaches hlast hends
  rcases hknown with hfresh | ⟨m, hm, hregisters⟩
  · obtain ⟨d, hd, rfl⟩ := List.mem_map.mp hfresh
    have hkeeps := (keepsTaken_start session.table).reaches henabled hreaches
    obtain ⟨m, hm, hregisters⟩ :=
      exists_marker_of_delivered henabled hkeeps hstep (List.mem_of_mem_filter hd)
    exact ⟨m, SymbolTable.localUnit_subset_of_prefix hrest hm, hregisters⟩
  · have hgrows : state.current.entries <+: final.table.entries :=
      (entries_prefix_step hstep).trans hrest
    exact ⟨m, SymbolTable.localUnit_subset_of_prefix hgrows hm, hregisters⟩

/-- A marker that a unit hands on registers its annotation in every round of whatever session the
unit is given to. -/
theorem contains_of_given {table : SymbolTable} (hd : d ∈ table.localUnit.declarations)
    (hregisters : d.Registers n) {given : Session}
    (hgiven : other.addDependency table.localUnit = .ok given)
    (hloaded : given.addAll inputs = .ok loaded) {state : State}
    (hstate : Reaches loaded.options { table := loaded.table } state) :
    (Registry.assemble loaded.options state.current).contains n = true := by
  have hadd : other.add (.dependency table.localUnit) = .ok given := hgiven
  have hvisible : d ∈ given.table.visible :=
    SymbolTable.mem_visible_of_handed_on hd (addUnit_of_add hadd)
  have hgrows : given.table.entries <+: state.current.entries :=
    (entries_prefix_addAll hloaded).trans (entries_prefix_reaches hstate)
  exact Registry.contains_of_mem_marked (Registry.mem_marked_iff.mpr
    ⟨d, SymbolTable.visible_subset_of_prefix hgrows hvisible, hregisters⟩)

theorem exists_final_of_run {result : SessionResult} (h : session.run = .ok result) :
    ∃ final, session.complete = .ok final ∧ final.result = result := by
  unfold run at h
  cases hcomplete : session.complete with
  | error error =>
      rw [hcomplete] at h
      exact nomatch h
  | ok final =>
      rw [hcomplete] at h
      exact ⟨final, rfl, Except.ok.inj h⟩

/-- **What a session learns is never forgotten.** As long as the processor of custom annotations is
switched on, an annotation that is registered in one round of a session is registered in every
later one. And if the session succeeds then every annotation it learned of from its own files is
registered in all rounds of any session that is given the resulting unit, whatever its options,
and whatever else it was given before and is given after. -/
theorem learned_annotations_stay_registered (session : Session)
    (henabled : session.options.isDisabled Processor.contributingAnnotations.id = false) :
    (∀ earlier later, Reaches session.options { table := session.table } earlier →
      Reaches session.options earlier later → ∀ n,
        (Registry.assemble session.options earlier.current).contains n = true →
          (Registry.assemble session.options later.current).contains n = true) ∧
    ∀ result, session.run = .ok result → ∀ n, session.Learns n →
      ∀ other given : Session, other.addDependency result.unit = .ok given →
        ∀ inputs loaded, given.addAll inputs = .ok loaded →
          ∀ state, Reaches loaded.options { table := loaded.table } state →
            (Registry.assemble loaded.options state.current).contains n = true := by
  refine ⟨?_, ?_⟩
  · intro earlier later hearlier hlater n hcontains
    have hkeeps := (keepsTaken_start session.table).reaches henabled hearlier
    exact contains_reaches henabled hkeeps hlater hcontains
  · intro result hresult n hlearns other given hgiven inputs loaded hloaded state hstate
    obtain ⟨final, hfinal, rfl⟩ := exists_final_of_run hresult
    obtain ⟨m, hm, hregisters⟩ := exists_marker_of_learns henabled hlearns hfinal
    exact contains_of_given hm hregisters hgiven hloaded hstate

end Session

namespace Sample

open Session

/-- A library with a custom annotation class and nothing that uses it. -/
def annotating : CompilationUnit :=
  { files := [{ id := ⟨"Custom.kt"⟩, declarations := [custom] }] }

/-- Its result makes the class a contribution annotation to the sessions it is given to. -/
theorem custom_annotation_is_passed_on :
    ∃ result given,
      ({ table := loadedTable [.sources annotating], maxRounds := 4 } : Session).run = .ok result ∧
      ({} : Session).addDependency result.unit = .ok given ∧
      (Registry.assemble {} (State.current { table := given.table })).contains custom.name
        = true := by
  have hsep : Separable annotating application := by
    constructor <;> decide
  have hstraight : Straightforward {} (loadedTable [.sources annotating]) := by
    decide
  obtain ⟨final, hfinal⟩ :=
    (compile_ok_iff hsep.distinct_library (Nat.le_refl 4)).mpr hstraight.goesThrough
  have hrun : ({ table := loadedTable [.sources annotating], maxRounds := 4 } : Session).run =
      .ok final.result := by
    show (State.complete {} 4 { table := loadedTable [.sources annotating] }).map State.result = _
    rw [(compile_eq_ok_iff.mp hfinal).2]
    rfl
  have hgiven : ({} : Session).addDependency final.result.unit =
      .ok { table := SymbolTable.initial.append (priorResult {} annotating).files false } := by
    unfold addDependency
    rw [unit_library hsep (succeeded_of_compile hsep.distinct_library hfinal),
      (SymbolTable.addUnit_eq_ok_iff SymbolTable.initial_wellFormed).mpr ⟨rfl, by decide⟩]
    rfl
  have hlearns : Learns { table := loadedTable [.sources annotating], maxRounds := 4 }
      custom.name := learns_of_source (by decide) (by decide) (by decide) rfl {} 4
  exact ⟨_, _, hrun, hgiven, (learned_annotations_stay_registered _ rfl).2 _ hrun _ hlearns _ _
    hgiven [] _ rfl _ .refl⟩

end Sample

end ScopeMerge
