import ScopeMerge.Proofs.History

/-!
# When a declaration is delivered

A file of the compilation is new in one round, the first that starts after it was
added. Whoever waits for new files relies on that: a file that were new twice
would be counted twice, and one that is never new would be missed. It is a fact
about the whole history of a table, since adding files and starting rounds may
come in any order, and some of what is added is refused.

* `Timeline` repeats `History` and notes for every file how many rounds had
  started when it went in.
* `Tracks` is the invariant that ties a table to its timeline. The two lists of
  identities that the table keeps, the new ones and the incoming ones, are the
  files of two neighbouring rounds, so starting a round moves on by one.
* `delivered_eq` reads the delivered declarations off the timeline.
-/

namespace ScopeMerge

namespace SymbolTable

/-- The rounds that some operations start, each as what it delivers again. -/
def rounds (ops : List Operation) : List (List Name) :=
  ops.filterMap (·.deferred?)

/-- A file in a table, with the number of rounds that had started when it was added. -/
structure Arrival where
  entry : Entry
  round : Nat

/-- What the operations on a new table have added to the built-in files, and when. -/
inductive Timeline : List Operation → List Arrival → Prop
  | start :
      Timeline [] (Builtin.unit.files.map fun file => { entry := ⟨file, false⟩, round := 0 })
  | step {ops : List Operation} {arrivals : List Arrival} {op : Operation}
      {kept : List SourceFile} {error : Option MergeError} (h : Timeline ops arrivals)
      (hkeeps : Keeps (arrivals.map (·.entry.file)) op.files kept error) :
      Timeline (ops ++ [op]) (arrivals ++ kept.map fun file =>
        { entry := ⟨file, op.isLocal⟩, round := (rounds ops).length })

/-- The local files that are new in a round. Rounds are counted from one, so these arrived when
one round less had started. -/
def newIn (round : Nat) (arrivals : List Arrival) : List FileId :=
  (arrivals.filter fun a => a.entry.isLocal && a.round + 1 = round).map (·.entry.file.id)

/-- A table is at the end of a timeline with so many rounds. -/
structure Tracks (table : SymbolTable) (arrivals : List Arrival) (rounds : List (List Name)) :
    Prop where
  entries : table.entries = arrivals.map (·.entry)
  /-- What is added in a round is new in the one after it. -/
  incoming : table.incoming = newIn (rounds.length + 1) arrivals
  introduced : table.introduced = newIn rounds.length arrivals
  redelivered : table.redelivered = rounds.getLastD []
  past : ∀ a ∈ arrivals, a.round ≤ rounds.length

variable {table : SymbolTable} {ops : List Operation} {arrivals : List Arrival}
  {started : List (List Name)}

/-! ## Timelines are histories -/

theorem Timeline.history (h : Timeline ops arrivals) : History ops (arrivals.map (·.entry)) := by
  induction h with
  | start => exact .start
  | @step ops arrivals op kept error _ hkeeps ih =>
      rw [List.map_append, List.map_map]
      refine @History.step _ _ _ _ error ih ?_
      rw [List.map_map]
      exact hkeeps

/-- An identity belongs to one arrival. -/
theorem Timeline.eq_of_id_eq (h : Timeline ops arrivals) {a b : Arrival} (ha : a ∈ arrivals)
    (hb : b ∈ arrivals) (hid : a.entry.file.id = b.entry.file.id) : a = b := by
  have hids : (arrivals.map (·.entry.file.id)).Nodup := by
    have hapart := h.history.pairwise_apart
    rw [List.map_map] at hapart
    exact List.pairwise_map.mpr ((List.pairwise_map.mp hapart).imp fun hab => hab.1)
  exact List.inj_on_of_nodup_map hids ha hb hid

/-! ## What one operation does -/

theorem mem_newIn_iff {round : Nat} {id : FileId} :
    id ∈ newIn round arrivals ↔
      ∃ a ∈ arrivals, a.entry.isLocal = true ∧ a.round + 1 = round ∧ a.entry.file.id = id := by
  simp [newIn, and_assoc]

/-- Files that are added after so many rounds are new in the next one, if they are local. -/
theorem newIn_append (round now : Nat) (arrivals : List Arrival) (kept : List SourceFile)
    (isLocal : Bool) :
    newIn round (arrivals ++ kept.map fun file => { entry := ⟨file, isLocal⟩, round := now })
      = newIn round arrivals ++
          if isLocal = true ∧ now + 1 = round then kept.map (·.id) else [] := by
  unfold newIn
  rw [List.filter_append, List.map_append, List.filter_map, List.map_map]
  congr 1
  cases isLocal with
  | false => simp [Function.comp_def]
  | true => by_cases hnow : now + 1 = round <;> simp [hnow, Function.comp_def]

/-- Adding files is noted with the round they were added in. -/
theorem Tracks.append (h : Tracks table arrivals started) (kept : List SourceFile)
    (isLocal : Bool) :
    Tracks (table.append kept isLocal) (arrivals ++ kept.map fun file =>
      { entry := ⟨file, isLocal⟩, round := started.length }) started where
  entries := by
    rw [List.map_append, List.map_map, ← h.entries]
    rfl
  incoming := by
    rw [newIn_append, ← h.incoming]
    unfold SymbolTable.append
    cases isLocal <;> simp
  introduced := by
    rw [newIn_append, if_neg (by omega), List.append_nil]
    exact h.introduced
  redelivered := h.redelivered
  past := by
    intro a ha
    rcases List.mem_append.mp ha with ha | ha
    · exact h.past a ha
    · obtain ⟨file, _, rfl⟩ := List.mem_map.mp ha
      exact Nat.le_refl _

/-- Starting a round makes new what was incoming. -/
theorem Tracks.beginRound (h : Tracks table arrivals started) (deferred : List Name) :
    Tracks (table.beginRound deferred) arrivals (started ++ [deferred]) where
  entries := h.entries
  incoming := by
    -- nothing arrives in a round before it has started
    have hnone : newIn (started.length + 1 + 1) arrivals = [] := by
      rw [List.eq_nil_iff_forall_not_mem]
      intro id hid
      obtain ⟨a, ha, _, hround, _⟩ := mem_newIn_iff.mp hid
      have hpast := h.past a ha
      omega
    rw [List.length_append]
    exact hnone.symm
  introduced := by
    rw [List.length_append]
    exact h.incoming
  redelivered := by simp [SymbolTable.beginRound]
  past := by
    intro a ha
    rw [List.length_append]
    exact Nat.le_succ_of_le (h.past a ha)

theorem tracks_initial : Tracks initial
    (Builtin.unit.files.map fun file => { entry := ⟨file, false⟩, round := 0 }) [] where
  entries := by
    rw [List.map_map]
    rfl
  incoming := by simp [newIn, initial]
  introduced := by simp [newIn, initial]
  redelivered := rfl
  past := by
    intro a ha
    obtain ⟨file, _, rfl⟩ := List.mem_map.mp ha
    exact Nat.le_refl _

/-- One more operation, whichever it is, goes on with the timeline. -/
theorem exists_arrivals_step (htimeline : Timeline ops arrivals)
    (h : Tracks (run ops) arrivals (rounds ops)) (op : Operation) :
    ∃ more, Timeline (ops ++ [op]) (arrivals ++ more) ∧
      Tracks (run (ops ++ [op])) (arrivals ++ more) (rounds (ops ++ [op])) := by
  have hrounds : rounds (ops ++ [op]) = rounds ops ++ op.deferred?.toList := by
    unfold rounds
    rw [List.filterMap_append]
    cases hop : op.deferred? <;> simp [hop]
  rw [run_append, hrounds]
  cases hop : op.deferred? with
  | some deferred =>
      obtain rfl := Operation.eq_beginRound hop
      refine ⟨[], @Timeline.step _ _ (.beginRound deferred) [] none htimeline .nil, ?_⟩
      rw [List.append_nil]
      exact h.beginRound deferred
  | none =>
      obtain ⟨kept, error, hkeeps, hadd⟩ := exists_keeps (run ops) op.files op.isLocal
      have hheld : (run ops).files = arrivals.map (·.entry.file) := by
        rw [files, h.entries, List.map_map]
        rfl
      rw [Operation.perform_eq_addFiles _ hop, hadd, Option.toList_none, List.append_nil]
      rw [hheld] at hkeeps
      exact ⟨_, .step htimeline hkeeps, h.append kept op.isLocal⟩

/-- Whatever is done later, what arrived so far keeps its place on the timeline. -/
theorem exists_arrivals_append (htimeline : Timeline ops arrivals)
    (h : Tracks (run ops) arrivals (rounds ops)) (later : List Operation) :
    ∃ more, Timeline (ops ++ later) (arrivals ++ more) ∧
      Tracks (run (ops ++ later)) (arrivals ++ more) (rounds (ops ++ later)) := by
  induction later using List.reverseRecOn with
  | nil =>
      refine ⟨[], ?_⟩
      rw [List.append_nil, List.append_nil]
      exact ⟨htimeline, h⟩
  | append_singleton later op ih =>
      obtain ⟨before, hbefore, htracks⟩ := ih
      obtain ⟨more, hmore, hlast⟩ := exists_arrivals_step hbefore htracks op
      refine ⟨before ++ more, ?_⟩
      rw [← List.append_assoc, ← List.append_assoc]
      exact ⟨hmore, hlast⟩

/-! ## What a table on a timeline delivers -/

theorem Tracks.localFiles (h : Tracks table arrivals started) :
    table.localFiles = (arrivals.filter (·.entry.isLocal)).map (·.entry.file) := by
  unfold SymbolTable.localFiles
  rw [h.entries, List.filter_map, List.map_map]
  rfl

theorem Tracks.mem_introducedFiles_iff (h : Tracks table arrivals started) {id : FileId} :
    id ∈ table.introducedFiles ↔ ∃ a ∈ arrivals,
      a.entry.isLocal = true ∧ a.round + 1 = started.length ∧ a.entry.file.id = id := by
  rw [introducedFiles, List.mem_mergeSort, h.introduced, mem_newIn_iff]

/-- A file is new in the round after its arrival and in no other. -/
theorem Tracks.id_mem_introducedFiles_iff (h : Tracks table arrivals started)
    (htimeline : Timeline ops arrivals) {a : Arrival} (ha : a ∈ arrivals) :
    a.entry.file.id ∈ table.introducedFiles ↔
      a.entry.isLocal = true ∧ a.round + 1 = started.length := by
  rw [h.mem_introducedFiles_iff]
  refine ⟨?_, ?_⟩
  · rintro ⟨b, hb, hlocal, hround, hid⟩
    obtain rfl := htimeline.eq_of_id_eq hb ha hid
    exact ⟨hlocal, hround⟩
  · rintro ⟨hlocal, hround⟩
    exact ⟨a, ha, hlocal, hround, rfl⟩

theorem Tracks.nodup_introducedFiles (h : Tracks table arrivals started)
    (hw : table.WellFormed) : table.introducedFiles.Nodup := by
  rw [introducedFiles, (List.mergeSort_perm _ _).nodup_iff, h.introduced]
  have hids : (arrivals.map (·.entry.file.id)).Nodup := by
    unfold WellFormed files at hw
    rw [h.entries, List.map_map] at hw
    exact List.pairwise_map.mpr ((List.pairwise_map.mp hw).imp fun hab => hab.1)
  exact (List.filter_sublist.map _).nodup hids

/-- **What is delivered in a round, in the order of arrival**: of the files that arrived before it
everything, and of all others what the round was told to deliver again. -/
theorem Tracks.delivered_eq (h : Tracks table arrivals started) (htimeline : Timeline ops arrivals)
    (hw : table.WellFormed) (hdistinct : ∀ file ∈ table.files, file.DistinctNames)
    (annotationType : Name) :
    table.delivered annotationType =
      (arrivals.filter (·.entry.isLocal)).flatMap fun a => a.entry.file.declarations.filter fun d =>
        (a.round + 1 = started.length ∨ d.name ∈ started.getLastD []) ∧
          d.isAnnotatedWith annotationType = true := by
  rw [delivered_of_distinct hw fun file hfile => hdistinct file (localFiles_subset hfile),
    h.localFiles, List.flatMap_map]
  refine List.flatMap_congr fun a ha => List.filter_congr fun d _ => ?_
  obtain ⟨ha, hlocal⟩ := List.mem_filter.mp ha
  have hnew : a.entry.file.id ∈ table.introduced ↔ a.round + 1 = started.length := by
    rw [← List.mem_mergeSort, ← introducedFiles, h.id_mem_introducedFiles_iff htimeline ha,
      and_iff_right hlocal]
  unfold delivers
  rw [Bool.eq_iff_iff, decide_eq_true_iff]
  simp [hnew, h.redelivered]

theorem nodup_delivered (hw : table.WellFormed)
    (hdistinct : ∀ file ∈ table.files, file.DistinctNames) (annotationType : Name) :
    (table.delivered annotationType).Nodup := by
  have hlocal : ∀ file ∈ table.localFiles, file.DistinctNames :=
    fun file hfile => hdistinct file (localFiles_subset hfile)
  rw [delivered_of_distinct hw hlocal]
  refine List.Nodup.of_map Declaration.name ?_
  exact SourceFile.nodup_names_flatMap hw.localFiles (fun _ _ => List.filter_subset_self _)
    fun file hfile => (List.filter_sublist.map _).nodup (hlocal file hfile)

/-- **Every local file is new once, and what is delivered is known from the timeline.** A file that
was added is new in one round only, the first that starts after it was added, whatever is done
later; if it belongs to a prior result it never is. In every round the declarations with an
annotation are delivered that are new or were named for it, in the order their files were added. -/
theorem deliveries_follow_timeline (ops : List Operation)
    (hdistinct : ∀ op ∈ ops, ∀ file ∈ op.files, file.DistinctNames) :
    ∃ arrivals, Timeline ops arrivals ∧
      (∀ a ∈ arrivals, ∀ later, a.entry.file.id ∈ (run (ops ++ later)).introducedFiles ↔
        a.entry.isLocal = true ∧ a.round + 1 = (rounds (ops ++ later)).length) ∧
      (∀ id ∈ (run ops).introducedFiles, ∃ a ∈ arrivals, a.entry.file.id = id) ∧
      (run ops).introducedFiles.Nodup ∧
      ∀ annotationType,
        (run ops).delivered annotationType =
          (arrivals.filter (·.entry.isLocal)).flatMap (fun a =>
            a.entry.file.declarations.filter fun d =>
              (a.round + 1 = (rounds ops).length ∨ d.name ∈ (rounds ops).getLastD []) ∧
                d.isAnnotatedWith annotationType = true) ∧
        ((run ops).delivered annotationType).Nodup := by
  obtain ⟨arrivals, htimeline, htracks⟩ : ∃ arrivals, Timeline ops arrivals ∧
      Tracks (run ops) arrivals (rounds ops) := by
    obtain ⟨more, htimeline, htracks⟩ := exists_arrivals_append .start tracks_initial ops
    exact ⟨_, htimeline, htracks⟩
  have hw : (run ops).WellFormed := (history_run ops).pairwise_apart
  have hnames : ∀ file ∈ (run ops).files, file.DistinctNames := by
    intro file hfile
    obtain ⟨entry, hentry, rfl⟩ := List.mem_map.mp hfile
    exact (history_run ops).distinctNames hdistinct entry hentry
  refine ⟨arrivals, htimeline, ?_, ?_, htracks.nodup_introducedFiles hw, fun annotationType =>
    ⟨htracks.delivered_eq htimeline hw hnames annotationType, nodup_delivered hw hnames _⟩⟩
  · intro a ha later
    obtain ⟨more, hlater, htracksLater⟩ := exists_arrivals_append htimeline htracks later
    exact htracksLater.id_mem_introducedFiles_iff hlater (List.mem_append_left _ ha)
  · intro id hid
    obtain ⟨a, ha, _, _, hfile⟩ := htracks.mem_introducedFiles_iff.mp hid
    exact ⟨a, ha, hfile⟩

end SymbolTable

namespace Sample

open Vocabulary SymbolTable

/-- A host that adds a file in the middle of a round, and starts the next one with a request that
was put off. -/
def turns : List Operation :=
  [ .addDependency library,
    .addSources application,
    .beginRound [],
    .addFile
      { id := ⟨"Second.kt"⟩, declarations := [{ component with name := ⟨"com.app.Second"⟩ }] },
    .beginRound [component.name, greeter.name] ]

/-- The second round delivers the new request and the one that was put off, in the order added,
and nothing of the prior result. -/
theorem second_round_delivers :
    (∀ op ∈ turns, ∀ file ∈ op.files, file.DistinctNames) ∧
      ∃ arrivals, Timeline turns arrivals ∧
        (∀ a ∈ arrivals, ∀ later, a.entry.file.id ∈ (run (turns ++ later)).introducedFiles ↔
          a.entry.isLocal = true ∧ a.round + 1 = (rounds (turns ++ later)).length) ∧
        [component, { component with name := ⟨"com.app.Second"⟩ }] =
          (arrivals.filter (·.entry.isLocal)).flatMap (fun a =>
            a.entry.file.declarations.filter fun d =>
              (a.round + 1 = 2 ∨ d.name ∈ [component.name, greeter.name]) ∧
                d.isAnnotatedWith mergeComponent = true) := by
  have hdistinct : ∀ op ∈ turns, ∀ file ∈ op.files, file.DistinctNames := by decide
  have hdelivered : (run turns).delivered mergeComponent =
      [component, { component with name := ⟨"com.app.Second"⟩ }] := by decide
  obtain ⟨arrivals, htimeline, honce, _, _, hall⟩ := deliveries_follow_timeline turns hdistinct
  refine ⟨hdistinct, arrivals, htimeline, honce, ?_⟩
  rw [← hdelivered]
  exact (hall mergeComponent).1

end Sample

end ScopeMerge
