import ScopeMerge.Proofs.Plain
import ScopeMerge.Proofs.Waiting

/-!
# Every merge request is answered once

A round looks at the merge requests that are delivered to it and not yet processed, and
either puts all of them off or answers all of them. `Accounted` is the balance between
two rounds: the names that were processed and the requests that the next round looks
at are together the requests of the sources. A round that answers moves the requests
from one side to the other, a round that puts them off leaves both sides alone, and
the last round has nothing left to look at.

So every request of a source is finalized in exactly one round, and nothing else ever
is. One file of the output answers it, because the names of two answers would clash.
-/

namespace ScopeMerge

open Vocabulary

/-! ## Processed requests -/

namespace ProcessedRequests

theorem mem_insert_iff {processed : ProcessedRequests} {name n : Name} :
    n ∈ (processed.insert name).names ↔ n ∈ processed.names ∨ n = name := by
  unfold insert
  split
  · next h =>
    have hin : name ∈ processed.names := by simpa [contains] using h
    exact ⟨Or.inl, fun hn => hn.elim id fun heq => heq ▸ hin⟩
  · simp

/-- Requests that are new, and each once, are counted in their order. -/
theorem names_foldl_insert {ds : List Declaration} (hnodup : (ds.map (·.name)).Nodup)
    (processed : ProcessedRequests) (hnew : ∀ d ∈ ds, d.name ∉ processed.names) :
    (ds.foldl (fun done d => done.insert d.name) processed).names
      = processed.names ++ ds.map (·.name) := by
  induction ds generalizing processed with
  | nil => exact (List.append_nil _).symm
  | cons d rest ih =>
      rw [List.map_cons, List.nodup_cons] at hnodup
      have hinsert : processed.insert d.name = { names := processed.names ++ [d.name] } := by
        unfold insert contains
        rw [if_neg (by simpa using hnew d List.mem_cons_self)]
      rw [List.foldl_cons, ih hnodup.2, hinsert, List.append_assoc]
      · rfl
      · intro e he hmem
        rcases mem_insert_iff.mp hmem with hmem | heq
        · exact hnew e (List.mem_cons_of_mem _ he) hmem
        · exact hnodup.1 (heq ▸ List.mem_map_of_mem he)

end ProcessedRequests

namespace Merge

theorem nodup_names_firstOfEachName (ds : List Declaration) :
    ((firstOfEachName ds).map (·.name)).Nodup := by
  induction ds with
  | nil => exact List.nodup_nil
  | cons d rest ih =>
      rw [firstOfEachName, List.map_cons, List.nodup_cons]
      refine ⟨?_, (List.filter_sublist.map _).nodup ih⟩
      simp

variable {table : SymbolTable} {processed : ProcessedRequests}

theorem nodup_names_outstanding : ((outstanding table processed).map (·.name)).Nodup :=
  (List.filter_sublist.map _).nodup (nodup_names_firstOfEachName _)

theorem notMem_of_outstanding {d : Declaration} (h : d ∈ outstanding table processed) :
    d.name ∉ processed.names := by
  simpa [ProcessedRequests.contains] using (List.mem_filter.mp h).2

end Merge

namespace Session

namespace State

variable {options : Options} {start : SymbolTable} {state : State}

/-! ## The balance -/

/-- The requests that the next round looks at. -/
def outstanding (options : Options) (state : State) : List Declaration :=
  Round.requests options state.current state.workspace.processed

/-- **A round processes all requests it looks at, or none of them.** -/
theorem processed_next (options : Options) (state : State) :
    (state.next options).workspace.processed.names = state.workspace.processed.names ++
      if Round.waits options state.current then []
      else (state.outstanding options).map (·.name) := by
  unfold next outstanding Round.requests
  rw [Round.processed_run, Round.sweep_eq]
  cases Round.merges options with
  | false => simp
  | true =>
      cases Round.waits options state.current with
      | true => simp
      | false =>
          exact ProcessedRequests.names_foldl_insert Merge.nodup_names_outstanding _
            fun d hd => Merge.notMem_of_outstanding hd

/-- What was processed and what the next round looks at are together the requests. -/
def Accounted (options : Options) (start : SymbolTable) (state : State) : Prop :=
  state.workspace.processed.names ++ (state.outstanding options).map (·.name)
    = (requests options start).map (·.name)

theorem accounted_start (hr : Ready start) : Accounted options start { table := start } := by
  unfold Accounted outstanding
  show [] ++ (Round.requests options (current { table := start }) {}).map (·.name) = _
  rw [requests_start hr]
  rfl

/-- A round keeps the balance. -/
theorem accounted_next (hr : Ready start) (hnext : Underway options start (state.next options))
    (h : Accounted options start state) : Accounted options start (state.next options) := by
  unfold Accounted
  rcases hnext.phase with ha | hc
  · -- everything was put off, and is looked at again
    unfold outstanding
    rw [requests_awaiting hr hnext.toSettled ha, ha.processed]
    rfl
  · unfold outstanding
    rw [hnext.requests_of_quiet hc.deferred, processed_next, ← h, List.map_nil, List.append_nil]
    cases hwaits : Round.waits options state.current with
    | false => rfl
    | true =>
        -- nothing is put off, so there was nothing to put off
        have hdeferred := deferred_next options state
        rw [hc.deferred, hwaits, if_pos rfl] at hdeferred
        have hnone : (state.outstanding options).map (·.name) = [] := by
          rw [List.eq_nil_iff_forall_not_mem]
          intro n hn
          have hput := List.mem_eraseDups.mpr hn
          unfold outstanding at hput
          rw [← hdeferred] at hput
          exact nomatch hput
        rw [hnone]
        rfl

theorem accounted_of_reaches (hr : Ready start) (h : Reaches options { table := start } state) :
    Accounted options start state := by
  induction h with
  | refl => exact accounted_start hr
  | round hreaches hstep ih =>
      obtain ⟨rfl, hnext⟩ := underway_of_step hr hreaches hstep
      exact accounted_next hr hnext ih

/-- What a round looks at are all the requests, or none. -/
theorem outstanding_of_reaches (hr : Ready start) (h : Reaches options { table := start } state) :
    state.outstanding options = requests options start ∨ state.outstanding options = [] := by
  rcases underway_of_reaches hr h with rfl | hunderway
  · exact Or.inl (requests_start hr)
  · rcases hunderway.phase with ha | hc
    · exact Or.inl (requests_awaiting hr hunderway.toSettled ha)
    · exact Or.inr (hunderway.requests_of_quiet hc.deferred)

/-- **After a successful run exactly the requests are processed**, each once and in their order. -/
theorem processed_of_complete (hr : Ready start) {n : Nat} {final : State}
    (h : State.complete options n { table := start } = .ok final) :
    final.workspace.processed.names = (requests options start).map (·.name) := by
  obtain ⟨hunderway, hconcluded⟩ := concluded_of_complete hr h
  obtain ⟨last, hreaches, hlast⟩ := exists_last_of_complete h
  obtain ⟨hfinal, hnext⟩ := underway_of_step hr hreaches hlast
  have haccounted := accounted_next hr hnext (accounted_of_reaches hr hreaches)
  obtain rfl : final = last.next options := hfinal
  unfold Accounted outstanding at haccounted
  rw [hunderway.requests_of_quiet hconcluded.deferred] at haccounted
  exact (List.append_nil _).symm.trans haccounted

end State

end Session

/-! ## The files that answer -/

namespace SourceFile

/-- Whether a file starts with the aggregate of a merge request. -/
def answers (file : SourceFile) (r : Declaration) : Bool :=
  match file.declarations with
  | [] => false
  | d :: _ => d.kind = .interface ∧ d.name = r.aggregateName ∧ d.origin = some r.name

/-- Whether a file starts with a top-level declaration of a namespace that contributions or custom
annotations are recorded in. -/
def records (file : SourceFile) : Bool :=
  match file.declarations with
  | [] => false
  | d :: _ => d.parent = none ∧ (d.package = lookupNamespace ∨ d.package = extendNamespace)

variable {file other : SourceFile} {r : Declaration}

theorem answers_of_finalize {t : SymbolTable} (h : Merge.finalize t r = .ok file) :
    file.answers r = true := by
  obtain ⟨request, finals, hrequest, _, rfl⟩ := Merge.finalize_eq_ok_iff.mp h
  have hname := Merge.name_aggregate hrequest
    (Merge.select t request.scope.marker request.exclusions) finals.factories
  have hdeclaration : request.declaration = r := by
    simp only [MergeRequest.parse, Checking.bind_eq_ok, Checking.pure_eq_ok] at hrequest
    obtain ⟨_, _, _, _, rfl⟩ := hrequest
    rfl
  exact decide_eq_true ⟨rfl, hname, congrArg (fun d : Declaration => some d.name) hdeclaration⟩

theorem exists_mem_of_answers (h : file.answers r = true) :
    ∃ d ∈ file.declarations, d.name = r.aggregateName := by
  unfold answers at h
  split at h
  · cases h
  · next d _ hd =>
    rw [hd]
    exact ⟨d, List.mem_cons_self, (of_decide_eq_true h).2.1⟩

/-- Two files that answer one request do not fit into one table. -/
theorem not_apart_of_answers (h : file.answers r = true) (h' : other.answers r = true) :
    ¬ file.Apart other := by
  obtain ⟨d, hd, hname⟩ := exists_mem_of_answers h
  obtain ⟨e, he, hname'⟩ := exists_mem_of_answers h'
  exact fun happart => happart.2 d hd e he (hname.trans hname'.symm)

/-- Of files that fit into one table, at most one answers a request. -/
theorem filter_answers {fs : List SourceFile} (hfs : fs.Pairwise Apart) (hfile : file ∈ fs)
    (h : file.answers r = true) : fs.filter (·.answers r) = [file] := by
  induction fs with
  | nil => exact nomatch hfile
  | cons first rest ih =>
      rw [List.pairwise_cons] at hfs
      rcases List.mem_cons.mp hfile with rfl | hfile
      · rw [List.filter_cons, if_pos h, List.filter_eq_nil_iff.mpr]
        exact fun g hg hanswers => not_apart_of_answers h hanswers (hfs.1 g hg)
      · rw [List.filter_cons, if_neg, ih hfs.2 hfile]
        exact fun hanswers => not_apart_of_answers hanswers h (hfs.1 file hfile)

end SourceFile

namespace Session

variable {options : Options} {start : SymbolTable} {final : State}

theorem records_of_emitted {file : SourceFile} (h : file ∈ emitted options start) :
    file.records = true := by
  obtain ⟨e, rfl, d, _, hcases⟩ := emitted_cases h
  have hplace : e.parent = none ∧ (e.package = lookupNamespace ∨ e.package = extendNamespace) := by
    rcases hcases with ⟨_, _, hstands, _⟩ | ⟨rfl, _⟩
    · exact ⟨hstands.parent, Or.inl hstands.package⟩
    · exact ⟨rfl, Or.inr rfl⟩
  exact decide_eq_true hplace

/-- **Every merge request is answered once.** In a successful compilation with the merge processor
on, exactly one generated file starts with the aggregate of a request among the sources, every
other generated file records a contribution or a custom annotation, exactly these requests are
processed, and no round finalizes anything but one of them. -/
theorem each_request_answered_once {inputs : List Input} {n : Nat}
    (hdistinct : ∀ file ∈ inputFiles inputs, file.DistinctNames)
    (hmerge : options.isDisabled Processor.mergeComponent.id = false)
    (h : compile options n inputs = .ok final) :
    (∀ r ∈ sourceDeclarations inputs, r.isAnnotatedWith mergeComponent = true →
        ∃ file, final.workspace.output.files.filter (·.answers r) = [file]) ∧
      (∀ file ∈ final.workspace.output.files, file.records = true ∨
        ∃ r ∈ sourceDeclarations inputs, r.isAnnotatedWith mergeComponent = true ∧
          file.answers r = true) ∧
      (∀ name, final.workspace.processed.contains name = true ↔
        ∃ r ∈ sourceDeclarations inputs, r.isAnnotatedWith mergeComponent = true ∧
          r.name = name) ∧
      ∀ state, State.Reaches options { table := loadedTable inputs } state →
        ∀ finalized ∈ (Merge.sweep (.assemble options state.current) state.current
            state.workspace.processed).1.finalized,
          ∃ r ∈ sourceDeclarations inputs, r.isAnnotatedWith mergeComponent = true ∧
            finalized.request = r.name ∧ finalized.result = Merge.finalize state.current r := by
  have hs := succeeded_of_compile hdistinct h
  have hrequest : ∀ {r}, r ∈ requests options (loadedTable inputs) ↔
      r ∈ sourceDeclarations inputs ∧ r.isAnnotatedWith mergeComponent = true :=
    mem_requests_iff hmerge
  have happart : final.workspace.output.files.Pairwise SourceFile.Apart := by
    have hw := hs.underway.wellFormed
    unfold SymbolTable.WellFormed at hw
    rw [hs.underway.files] at hw
    exact (List.pairwise_append.mp hw).2.1
  refine ⟨?_, ?_, ?_, ?_⟩
  · intro r hr hannotated
    obtain ⟨file, _, hfile, _, hfinalize⟩ := hs.exists_file_of_request hmerge hr hannotated
    exact ⟨file, SourceFile.filter_answers happart hfile (SourceFile.answers_of_finalize hfinalize)⟩
  · intro file hfile
    rw [hs.concluded.files] at hfile
    rcases List.mem_append.mp hfile with hfile | hfile
    · exact Or.inl (records_of_emitted hfile)
    · obtain ⟨r, hr, hfinalize⟩ := exists_request_of_merged hfile
      obtain ⟨hsource, hannotated⟩ := hrequest.mp hr
      exact Or.inr ⟨r, hsource, hannotated, SourceFile.answers_of_finalize hfinalize⟩
  · intro name
    obtain ⟨_, hcomplete⟩ := compile_eq_ok_iff.mp h
    unfold ProcessedRequests.contains
    rw [State.processed_of_complete hs.ready hcomplete, List.contains_iff_mem, List.mem_map]
    simp only [hrequest, and_assoc]
  · intro state hreaches finalized hfinalized
    rw [Round.sweep_eq] at hfinalized
    split at hfinalized
    · exact nomatch hfinalized
    · obtain ⟨r, hr, rfl⟩ := List.mem_map.mp hfinalized
      have hlooked : r ∈ state.outstanding options := by
        unfold State.outstanding Round.requests Round.merges
        rw [hmerge, Bool.not_false, if_pos rfl]
        exact hr
      have hsource : r ∈ requests options (loadedTable inputs) := by
        rcases State.outstanding_of_reaches hs.ready hreaches with hall | hnone
        · rw [← hall]
          exact hlooked
        · rw [hnone] at hlooked
          exact nomatch hlooked
      obtain ⟨hr, hannotated⟩ := hrequest.mp hsource
      exact ⟨r, hr, hannotated, rfl, rfl⟩

/-- The request of the sample is answered by one file. -/
theorem component_answered_once : ∃ final, compile {} 4 Sample.inputs = .ok final ∧
    ∃ file, final.workspace.output.files.filter (·.answers Sample.component) = [file] := by
  obtain ⟨final, hfinal⟩ := Sample.compiles
  obtain ⟨hanswered, _⟩ := each_request_answered_once Sample.distinct rfl hfinal
  exact ⟨final, hfinal, hanswered Sample.component (by decide) (by decide)⟩

end Session

end ScopeMerge
