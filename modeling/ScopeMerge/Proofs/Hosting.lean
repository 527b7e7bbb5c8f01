import ScopeMerge.Proofs.Answering

/-!
# Sweeps under any host

A session is one way to drive the merge sweep, and a well-behaved one. What keeps a
request from being finalized twice must not depend on that: a host may deliver stale
names, start rounds in which nothing is new, sweep twice in one round with different
options, or count a request as processed that no sweep has seen.

A `Host` is a table and a set of processed requests, changed by any sequence of
actions. Everything comes from what one sweep does with the set it is given: it looks
only at names outside of the set (`notMem_outstanding`), and what it finalizes is in
the set afterwards (`requests_subset_processed`). The set never shrinks
(`processed_subset_of_run`), so the names that two sweeps of a run finalize are
disjoint.
-/

namespace ScopeMerge

/-- The requests that a sweep finalized, by name. -/
def Merge.Sweep.requests (sweep : Sweep) : List Name :=
  sweep.finalized.map (·.request)

theorem Merge.Sweep.requests_eq_nil {sweep : Sweep} (h : sweep.finalized = []) :
    sweep.requests = [] := by
  unfold requests
  rw [h]
  rfl

/-- What a host holds on to between its calls. -/
structure Host where
  table : SymbolTable := .initial
  processed : ProcessedRequests := {}

namespace Host

/-- What a host can do. -/
inductive Action where
  /-- Adds a file. If it is refused, nothing changes. -/
  | add (file : SourceFile) (isLocal : Bool)
  /-- Starts a round in which some declarations are delivered again. -/
  | beginRound (deferred : List Name)
  /-- Counts a request as processed. -/
  | mark (name : Name)
  | sweep (options : Options)

/-- The host after an action, and what a sweep did with the requests. -/
def act (host : Host) : Action → Host × Merge.Sweep
  | .add file isLocal =>
    match host.table.addFile file isLocal with
    | .ok table => ({ host with table }, {})
    | .error _ => (host, {})
  | .beginRound deferred => ({ host with table := host.table.beginRound deferred }, {})
  | .mark name => ({ host with processed := host.processed.insert name }, {})
  | .sweep options =>
    let (sweep, processed) :=
      Merge.sweep (.assemble options host.table) host.table host.processed
    ({ host with processed }, sweep)

/-- One action of a run, with the host before and after it. -/
structure Event where
  before : Host
  action : Action
  sweep : Merge.Sweep
  after : Host

/-- What happens when a host does one thing after the other. -/
def run : Host → List Action → List Event
  | _, [] => []
  | host, action :: rest =>
    { before := host, action, sweep := (host.act action).2, after := (host.act action).1 } ::
      run (host.act action).1 rest

/-! ## One action -/

/-- What one action does with the merge requests. -/
structure Event.AllOrNothing (event : Event) : Prop where
  /-- What is processed is not looked at again. -/
  fresh : ∀ name ∈ event.before.processed.names,
    name ∉ event.sweep.pending ∧ name ∉ event.sweep.requests
  exclusive : event.sweep.pending = [] ∨ event.sweep.finalized = []
  /-- A sweep that puts requests off processes none. -/
  deferring : event.sweep.pending ≠ [] → event.after.processed = event.before.processed
  /-- A sweep that finalizes requests processes these, whatever their results are. -/
  finalizing : event.sweep.finalized ≠ [] →
    event.after.processed.names = event.before.processed.names ++ event.sweep.requests
  /-- A sweep leaves out no request that is delivered to it and not processed. -/
  complete : ∀ options, event.action = .sweep options →
    ∀ d ∈ event.before.table.delivered Vocabulary.mergeComponent,
      d.name ∉ event.before.processed.names →
        d.name ∈ event.sweep.pending ++ event.sweep.requests

end Host

namespace Merge

variable {table : SymbolTable} {processed : ProcessedRequests}

theorem name_mem_firstOfEachName {ds : List Declaration} {d : Declaration} (h : d ∈ ds) :
    d.name ∈ (firstOfEachName ds).map (·.name) := by
  induction ds with
  | nil => exact nomatch h
  | cons first rest ih =>
      rw [firstOfEachName, List.map_cons, List.mem_cons]
      by_cases hname : d.name = first.name
      · exact Or.inl hname
      · rcases List.mem_cons.mp h with rfl | hd
        · exact absurd rfl hname
        · obtain ⟨e, he, hsame⟩ := List.mem_map.mp (ih hd)
          refine Or.inr (List.mem_map.mpr ⟨e, List.mem_filter.mpr ⟨he, ?_⟩, hsame⟩)
          simpa [hsame] using hname

theorem name_mem_outstanding {d : Declaration}
    (h : d ∈ table.delivered Vocabulary.mergeComponent) (hnew : d.name ∉ processed.names) :
    d.name ∈ (outstanding table processed).map (·.name) := by
  obtain ⟨e, he, hname⟩ := List.mem_map.mp (name_mem_firstOfEachName h)
  refine List.mem_map.mpr ⟨e, List.mem_filter.mpr ⟨he, ?_⟩, hname⟩
  simpa [ProcessedRequests.contains, hname] using hnew

end Merge

namespace Host

variable {host : Host} {action : Action} {actions : List Action}

theorem act_add_eq (host : Host) (file : SourceFile) (isLocal : Bool) :
    (host.act (.add file isLocal)).2 = {} ∧
      (host.act (.add file isLocal)).1.processed = host.processed := by
  unfold act
  dsimp only
  split <;> exact ⟨rfl, rfl⟩

/-- The requests that a sweep of the host would look at. -/
def outstanding (host : Host) : List Name :=
  (Merge.outstanding host.table host.processed).map (·.name)

theorem notMem_outstanding {name : Name} (h : name ∈ host.processed.names) :
    name ∉ host.outstanding := by
  intro hmem
  obtain ⟨d, hd, rfl⟩ := List.mem_map.mp hmem
  exact Merge.notMem_of_outstanding hd h

/-- A sweep puts off everything that is outstanding, or finalizes all of it. -/
theorem act_sweep_cases (host : Host) (options : Options) :
    ((host.act (.sweep options)).2.pending = host.outstanding ∧
        (host.act (.sweep options)).2.finalized = [] ∧
        (host.act (.sweep options)).1.processed = host.processed) ∨
      ((host.act (.sweep options)).2.pending = [] ∧
        (host.act (.sweep options)).2.requests = host.outstanding ∧
        (host.act (.sweep options)).1.processed.names
          = host.processed.names ++ host.outstanding) := by
  unfold act Merge.sweep
  dsimp only
  cases Merge.hasNewContributions (.assemble options host.table) host.table with
  | true => exact Or.inl ⟨rfl, rfl, rfl⟩
  | false =>
      refine Or.inr ⟨rfl, ?_, ?_⟩
      · simp [Merge.Sweep.requests, outstanding]
      · exact ProcessedRequests.names_foldl_insert Merge.nodup_names_outstanding host.processed
          fun d hd => Merge.notMem_of_outstanding hd

/-- **One action is all or nothing.** -/
theorem allOrNothing_act (host : Host) (action : Action) :
    Event.AllOrNothing
      { before := host, action, sweep := (host.act action).2, after := (host.act action).1 } := by
  -- an action that does not sweep has an empty sweep
  have hquiet : ∀ event : Event, event.sweep = {} →
      (∀ options, event.action ≠ .sweep options) → event.AllOrNothing := by
    intro event hnone hother
    refine ⟨?_, Or.inl ?_, ?_, ?_, fun options heq => absurd heq (hother options)⟩
    · intro name _
      rw [hnone]
      exact ⟨List.not_mem_nil, List.not_mem_nil⟩
    · rw [hnone]
    · intro h
      rw [hnone] at h
      exact absurd rfl h
    · intro h
      rw [hnone] at h
      exact absurd rfl h
  cases action with
  | add file isLocal => exact hquiet _ (act_add_eq host file isLocal).1 (fun _ => nofun)
  | beginRound deferred => exact hquiet _ rfl (fun _ => nofun)
  | mark name => exact hquiet _ rfl (fun _ => nofun)
  | sweep options =>
      have hcomplete : ∀ d ∈ host.table.delivered Vocabulary.mergeComponent,
          d.name ∉ host.processed.names → d.name ∈ host.outstanding :=
        fun _ hd hname => Merge.name_mem_outstanding hd hname
      rcases act_sweep_cases host options with
        ⟨hpending, hfinalized, hprocessed⟩ | ⟨hpending, hrequests, hprocessed⟩
      · have hrequests := Merge.Sweep.requests_eq_nil hfinalized
        refine ⟨fun name hname => ⟨?_, ?_⟩, Or.inr hfinalized, fun _ => hprocessed,
          fun h => absurd hfinalized h, fun _ _ d hd hname => ?_⟩
        · rw [hpending]
          exact notMem_outstanding hname
        · rw [hrequests]
          exact List.not_mem_nil
        · rw [hpending]
          exact List.mem_append_left _ (hcomplete d hd hname)
      · refine ⟨fun name hname => ⟨?_, ?_⟩, Or.inl hpending, fun h => absurd hpending h,
          fun _ => ?_, fun _ _ d hd hname => ?_⟩
        · rw [hpending]
          exact List.not_mem_nil
        · rw [hrequests]
          exact notMem_outstanding hname
        · rw [hrequests]
          exact hprocessed
        · rw [hrequests]
          exact List.mem_append_right _ (hcomplete d hd hname)

/-! ## Whole runs -/

/-- Every event of a run comes from an action. -/
theorem allOrNothing_of_run {event : Event} (h : event ∈ run host actions) :
    event.AllOrNothing := by
  induction actions generalizing host with
  | nil => exact nomatch h
  | cons action rest ih =>
      rcases List.mem_cons.mp h with rfl | h
      · exact allOrNothing_act host action
      · exact ih h

theorem processed_subset_of_act (host : Host) (action : Action) :
    host.processed.names ⊆ (host.act action).1.processed.names := by
  cases action with
  | add file isLocal => rw [(act_add_eq host file isLocal).2]; exact List.Subset.refl _
  | beginRound deferred => exact List.Subset.refl _
  | mark name => exact fun n hn => ProcessedRequests.mem_insert_iff.mpr (Or.inl hn)
  | sweep options =>
      rcases act_sweep_cases host options with ⟨_, _, hprocessed⟩ | ⟨_, _, hprocessed⟩
      · rw [hprocessed]
        exact List.Subset.refl _
      · rw [hprocessed]
        exact List.subset_append_left _ _

/-- What is processed stays processed. -/
theorem processed_subset_of_run {event : Event} (h : event ∈ run host actions) :
    host.processed.names ⊆ event.before.processed.names := by
  induction actions generalizing host with
  | nil => exact nomatch h
  | cons action rest ih =>
      rcases List.mem_cons.mp h with rfl | h
      · exact List.Subset.refl _
      · exact List.Subset.trans (processed_subset_of_act host action) (ih h)

/-- After an action, no sweep looks at what is processed by then. -/
theorem pairwise_run (host : Host) (actions : List Action) :
    (run host actions).Pairwise fun earlier later =>
      ∀ name ∈ earlier.after.processed.names,
        name ∉ later.sweep.pending ∧ name ∉ later.sweep.requests := by
  induction actions generalizing host with
  | nil => exact .nil
  | cons action rest ih =>
      refine .cons (fun later hlater name hname => ?_) (ih _)
      exact (allOrNothing_of_run hlater).fresh name (processed_subset_of_run hlater hname)

theorem requests_subset_processed {event : Event} (h : event.AllOrNothing) :
    event.sweep.requests ⊆ event.after.processed.names := by
  intro name hname
  have hsome : event.sweep.finalized ≠ [] := by
    intro hnone
    unfold Merge.Sweep.requests at hname
    rw [hnone] at hname
    exact nomatch hname
  rw [h.finalizing hsome]
  exact List.mem_append_right _ hname

theorem nodup_requests_act (host : Host) (action : Action) :
    (host.act action).2.requests.Nodup := by
  cases action with
  | add file isLocal => rw [(act_add_eq host file isLocal).1]; exact List.nodup_nil
  | beginRound deferred => exact List.nodup_nil
  | mark name => exact List.nodup_nil
  | sweep options =>
      rcases act_sweep_cases host options with ⟨_, hfinalized, _⟩ | ⟨_, hrequests, _⟩
      · rw [Merge.Sweep.requests_eq_nil hfinalized]
        exact List.nodup_nil
      · rw [hrequests]
        exact Merge.nodup_names_outstanding

/-- No name is finalized twice in a run. -/
theorem nodup_requests_run (host : Host) (actions : List Action) :
    ((run host actions).flatMap (·.sweep.requests)).Nodup := by
  induction actions generalizing host with
  | nil => exact List.nodup_nil
  | cons action rest ih =>
      rw [run, List.flatMap_cons, List.nodup_append]
      refine ⟨nodup_requests_act host action, ih _, ?_⟩
      rintro name hname _ hother rfl
      obtain ⟨later, hlater, hmem⟩ := List.mem_flatMap.mp hother
      have hprocessed := requests_subset_processed (allOrNothing_act host action) hname
      have hfresh := (allOrNothing_of_run hlater).fresh name
        (processed_subset_of_run hlater hprocessed)
      exact hfresh.2 hmem

/-- **Whatever a host does, every request is finalized at most once and sweeps are all or
nothing.** Over a whole run no name is finalized twice, once a name is processed no later sweep puts
it off or finalizes it, and each sweep by itself either puts requests off, and processes none, or
finalizes and processes them. -/
theorem requests_finalized_at_most_once (host : Host) (actions : List Action) :
    ((run host actions).flatMap (·.sweep.requests)).Nodup ∧
      ((run host actions).Pairwise fun earlier later =>
        ∀ name ∈ earlier.after.processed.names,
          name ∉ later.sweep.pending ∧ name ∉ later.sweep.requests) ∧
      ∀ event ∈ run host actions, event.AllOrNothing :=
  ⟨nodup_requests_run host actions, pairwise_run host actions, fun _ h => allOrNothing_of_run h⟩

end Host

/-! ## A sample

A host adds two requests together with a contribution, so that the first sweep puts both off. They
are delivered again in the second round and, by mistake, in a third one. -/

namespace Sample

/-- A request without a scope. -/
def unscoped : Declaration :=
  { Declaration.topLevel .interface "com.app" "Unscoped" with
    annotations := [{ type := Vocabulary.mergeComponent }] }

def hosting : List Host.Action :=
  let names := [component.name, unscoped.name]
  [.add { id := ⟨"App.kt"⟩, declarations := [component, unscoped, greeter] } true, .beginRound [],
    .sweep {}, .beginRound names, .sweep {}, .beginRound names, .sweep {}]

end Sample

/-- Both requests are finalized in the second sweep and in no other one, the malformed one too. -/
theorem Host.late_delivery_changes_nothing :
    (run {} Sample.hosting).map (fun e => (e.sweep.pending, e.sweep.requests)) =
        [([], []), ([], []), ([Sample.component.name, Sample.unscoped.name], []), ([], []),
          ([], [Sample.component.name, Sample.unscoped.name]), ([], []), ([], [])] ∧
      ((run {} Sample.hosting).flatMap fun e => e.sweep.finalized.filter fun finalized =>
          finalized.request = Sample.unscoped.name).map (·.result)
        = [.error (.missingScope Sample.unscoped.name)] ∧
      ((run {} Sample.hosting).flatMap (·.sweep.requests)).Nodup ∧
      ∀ event ∈ run {} Sample.hosting, event.AllOrNothing := by
  obtain ⟨honce, _, hall⟩ := requests_finalized_at_most_once {} Sample.hosting
  exact ⟨by decide +kernel, by decide +kernel, honce, hall⟩

end ScopeMerge
