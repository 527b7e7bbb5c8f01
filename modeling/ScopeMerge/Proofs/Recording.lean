import ScopeMerge.Proofs.Generated
import ScopeMerge.Proofs.Writing

/-!
# What the recording processors do in a round

Five processors record contributions, and in every round each of them offers
itself what is delivered under its annotations. This file says what that amounts
to, one fact for each side of it:

* `attempts`: what a processor writes, given what it took before;
* `takes`: under which annotations it has taken what;
* `run_of_taken`: with nothing left to take it does nothing at all;
* the two `_of_ne` lemmas: no processor touches what another one took.

`channels` is the same work seen from the declarations. Under which annotation a
processor takes a declaration and what it makes of it depends on the declaration
and the table only. When everything is taken for the first time, and no two
declarations share a name, the attempts are what the channels make of the
declarations they accept.
-/

namespace ScopeMerge

open Vocabulary Round Attempt

/-! ## Contributing -/

/-- By a legacy annotation a declaration contributes what it would by the native one. -/
theorem LegacyAnnotation.lookups_of_outcome {options : Options} {table : SymbolTable}
    {legacy : LegacyAnnotation} {d : Declaration} {es : List Declaration}
    (h : legacy.outcome options table d = .ok es) : legacy.lookups table d = .ok es := by
  unfold outcome at h
  split at h
  · exact h
  · split at h
    · exact h
    · exact nomatch h

namespace Contribution

/-- A way to contribute that gives lookups only, each for the declaration itself or for a factory
nested in it. -/
def GivesLookups (table : SymbolTable) (contribute : Declaration → Outcome) : Prop :=
  ∀ d ds, contribute d = .ok ds → ∀ lookup ∈ ds, ∃ contributor scope,
    lookup.StandsFor contributor scope ∧
      (contributor = d ∨ contributor ∈ SubcomponentShape.factories table d)

variable (table : SymbolTable) (annotationType : Name)

theorem givesLookups_interface : GivesLookups table (interfaceLookups table annotationType) := by
  intro d ds h lookup hl
  obtain ⟨scope, _, rfl⟩ := interfaceLookups_ok h
  rw [List.mem_singleton.mp hl]
  exact ⟨d, scope, ⟨rfl, rfl, rfl, rfl, Or.inl rfl⟩, Or.inl rfl⟩

theorem givesLookups_binding : GivesLookups table (bindingLookups table annotationType) := by
  intro d ds h lookup hl
  obtain ⟨scope, bindings, _, _, rfl⟩ := bindingLookups_ok h
  obtain ⟨binding, _, rfl⟩ := List.mem_map.mp hl
  exact ⟨d, scope, ⟨rfl, rfl, rfl, rfl, Or.inl rfl⟩, Or.inl rfl⟩

theorem givesLookups_subcomponent : GivesLookups table (subcomponentLookups table) := by
  intro d ds h lookup hl
  obtain ⟨shape, scope, hshape, _, rfl⟩ := subcomponentLookups_ok h
  rw [List.mem_singleton.mp hl]
  exact ⟨shape.factory, scope, ⟨rfl, rfl, rfl, rfl, Or.inr rfl⟩,
    Or.inr (SubcomponentShape.factory_mem_of_ofSubcomponent hshape)⟩

theorem givesLookups_strayFactoryCheck : GivesLookups table (strayFactoryCheck table) := by
  intro d ds h lookup hl
  rw [strayFactoryCheck_ok h] at hl
  exact nomatch hl

theorem givesLookups_legacy (options : Options) (legacy : LegacyAnnotation) :
    GivesLookups table (legacy.outcome options table) := by
  have hnative : GivesLookups table (legacy.lookups table) := by
    cases legacy with
    | contributesTo => exact givesLookups_interface table _
    | contributesBinding => exact givesLookups_binding table _
  exact fun d ds h => hnative d ds <| LegacyAnnotation.lookups_of_outcome h

/-- A way to contribute that gives nothing a later round looks at. -/
def GivesInert (contribute : Declaration → Outcome) : Prop :=
  ∀ d ds, contribute d = .ok ds → ∀ e ∈ ds, e.Inert

theorem GivesLookups.givesInert {table : SymbolTable} {contribute : Declaration → Outcome}
    (h : GivesLookups table contribute) : GivesInert contribute := by
  intro d ds hds lookup hl
  obtain ⟨_, _, hstands, _⟩ := h d ds hds lookup hl
  exact hstands.inert

theorem givesInert_markers : GivesInert markers := by
  intro d ds h e he
  rw [markers_ok h, List.mem_singleton] at he
  rw [he]
  exact Declaration.inert_of_annotations rfl fun _ hu => nomatch hu

end Contribution

open Contribution

/-! ## One processor -/

namespace Round

/-- The attempts made for the declarations not taken before. -/
def attemptEach (contribute : Declaration → Outcome) (taken : List Name)
    (ds : List Declaration) : List Attempt :=
  (untaken taken ds).map fun d => ofOutcome (contribute d)

theorem writes_takeEach {act : Output → Declaration → Output} {contribute : Declaration → Outcome}
    (h : ∀ (o : Output) d, o.Writes (act o d) [ofOutcome (contribute d)])
    (ds : List Declaration) (taken : List Name) (o : Output) :
    o.Writes (takeEach act ds taken o).2 (attemptEach contribute taken ds) := by
  rw [takeEach_eq]
  exact Output.Writes.foldl _ _ (fun o d _ => h o d) o

theorem inert_of_attemptEach {contribute : Declaration → Outcome} (h : GivesInert contribute)
    {taken : List Name} {ds : List Declaration} {file : SourceFile}
    (hf : file ∈ written (attemptEach contribute taken ds)) : file.Inert := by
  obtain ⟨files, hfiles, hfile⟩ := mem_written.mp hf
  obtain ⟨d, _, hd⟩ := List.mem_map.mp hfiles
  obtain ⟨es, hes, rfl⟩ := ofOutcome_eq_some_iff.mp hd
  obtain ⟨e, he, rfl⟩ := List.mem_map.mp hfile
  intro x hx
  rw [List.mem_singleton.mp hx]
  exact h d es hes e he

end Round

namespace Processor

variable {processor other : Processor} {options : Options} {table : SymbolTable}
  {workspace : Workspace}

/-- What a processor attempts in a round. -/
def attempts (options : Options) (table : SymbolTable) (taken : Taken) :
    Processor → List Attempt
  | contributingAnnotations =>
    attemptEach markers taken.annotations (table.delivered contributingAnnotation)
  | contributesTo =>
    attemptEach (interfaceLookups table Vocabulary.contributesTo) taken.interfaces
      (table.delivered Vocabulary.contributesTo)
  | contributesBinding =>
    attemptEach (bindingLookups table Vocabulary.contributesBinding) taken.bindings
      (table.delivered Vocabulary.contributesBinding)
  | contributesSubcomponent =>
    let subcomponents := table.delivered Vocabulary.contributesSubcomponent
    attemptEach (subcomponentLookups table) taken.subcomponents subcomponents ++
      attemptEach (strayFactoryCheck table) (takenAfter taken.subcomponents subcomponents)
        (table.delivered subcomponentFactory)
  | legacy =>
    attemptEach ( LegacyAnnotation.contributesTo.outcome options table) taken.legacyInterfaces
        (table.delivered legacyContributesTo) ++
      attemptEach ( LegacyAnnotation.contributesBinding.outcome options table) taken.legacyBindings
        (table.delivered legacyContributesBinding)
  | mergeComponent => []

/-- Under which annotations a processor takes declarations, and which ones it has taken. -/
def takes (taken : Taken) : Processor → List (Name × List Name)
  | contributingAnnotations => [( contributingAnnotation, taken.annotations)]
  | contributesTo => [(Vocabulary.contributesTo, taken.interfaces)]
  | contributesBinding => [(Vocabulary.contributesBinding, taken.bindings)]
  | contributesSubcomponent =>
    [(Vocabulary.contributesSubcomponent, taken.subcomponents),
      (subcomponentFactory, taken.subcomponents)]
  | legacy =>
    [(legacyContributesTo, taken.legacyInterfaces),
      (legacyContributesBinding, taken.legacyBindings)]
  | mergeComponent => []

/-- A processor has taken everything that is delivered to it. -/
def Done (table : SymbolTable) (taken : Taken) (processor : Processor) : Prop :=
  ∀ entry ∈ processor.takes taken, ∀ d ∈ table.delivered entry.1, d.name ∈ entry.2

theorem mem_inputOnly_of_takes {taken : Taken} {entry : Name × List Name}
    (h : entry ∈ processor.takes taken) : entry.1 ∈ inputOnly := by
  cases processor <;> simp only [takes, List.mem_cons, List.not_mem_nil, or_false] at h
  case contributesSubcomponent | legacy => rcases h with rfl | rfl <;> simp [inputOnly]
  all_goals subst h; simp [inputOnly]

theorem run_writes (h : processor ≠ mergeComponent) :
    workspace.output.Writes (processor.run options table workspace).1.output
      (processor.attempts options table workspace.taken) := by
  have hrecord : ∀ contribute, ∀ (o : Output) d,
      o.Writes (record contribute o d) [ofOutcome (contribute d)] := fun contribute o d =>
    Output.Writes.absorb o (contribute d)
  have hlegacy : ∀ legacy : LegacyAnnotation, ∀ (o : Output) d,
      o.Writes (recordLegacy options table legacy o d)
        [ofOutcome (legacy.outcome options table d)] := fun legacy o d =>
    Output.Writes.recordLegacy options table legacy o d
  cases processor with
  | contributingAnnotations => exact writes_takeEach (hrecord _) _ _ _
  | contributesTo => exact writes_takeEach (hrecord _) _ _ _
  | contributesBinding => exact writes_takeEach (hrecord _) _ _ _
  | contributesSubcomponent =>
      refine (writes_takeEach (hrecord _) _ _ _).trans ?_
      -- the second pass starts from what the first one took
      have hfirst : (takeEach (record (subcomponentLookups table))
          (table.delivered Vocabulary.contributesSubcomponent) workspace.taken.subcomponents
          workspace.output).1 = takenAfter workspace.taken.subcomponents
            (table.delivered Vocabulary.contributesSubcomponent) := by rw [takeEach_eq]
      rw [← hfirst]
      exact writes_takeEach (hrecord (strayFactoryCheck table)) _ _ _
  | legacy =>
      exact (writes_takeEach (hlegacy _) _ _ _).trans (writes_takeEach (hlegacy _) _ _ _)
  | mergeComponent => exact absurd rfl h

theorem done_run : processor.Done table (processor.run options table workspace).1.taken := by
  unfold Done Processor.run
  -- whatever is delivered counts as taken after the round
  cases processor with
  | contributesSubcomponent =>
      dsimp only
      rw [takeEach_eq, takeEach_eq]
      intro entry hentry d hd
      simp only [takes, List.mem_cons, List.not_mem_nil, or_false] at hentry
      rcases hentry with rfl | rfl
      · exact taken_subset_takenAfter (name_mem_takenAfter hd)
      · exact name_mem_takenAfter hd
  | legacy =>
      dsimp only
      rw [takeEach_eq, takeEach_eq]
      intro entry hentry d hd
      simp only [takes, List.mem_cons, List.not_mem_nil, or_false] at hentry
      rcases hentry with rfl | rfl <;> exact name_mem_takenAfter hd
  | mergeComponent => exact fun entry hentry => nomatch hentry
  | _ =>
      dsimp only
      rw [takeEach_eq]
      intro entry hentry d hd
      simp only [takes, List.mem_cons, List.not_mem_nil, or_false] at hentry
      subst hentry
      exact name_mem_takenAfter hd

theorem takes_run_of_ne (h : processor ≠ other) :
    other.takes (processor.run options table workspace).1.taken = other.takes workspace.taken := by
  cases processor <;> cases other <;> first | rfl | exact absurd rfl h

theorem attempts_run_of_ne (h : processor ≠ other) :
    other.attempts options table (processor.run options table workspace).1.taken
      = other.attempts options table workspace.taken := by
  cases processor <;> cases other <;> first | rfl | exact absurd rfl h

theorem processed_run (h : processor ≠ mergeComponent) :
    (processor.run options table workspace).1.processed = workspace.processed := by
  cases processor <;> first | rfl | exact absurd rfl h

theorem deferred_run (h : processor ≠ mergeComponent) :
    (processor.run options table workspace).2 = [] := by
  cases processor <;> first | rfl | exact absurd rfl h

/-- **A processor with nothing left to take does nothing.** -/
theorem run_of_done (h : processor ≠ mergeComponent)
    (hdone : processor.Done table workspace.taken) :
    processor.run options table workspace = (workspace, []) := by
  have hnothing : ∀ (act : Output → Declaration → Output) (entry : Name × List Name),
      entry ∈ processor.takes workspace.taken → ∀ o,
        takeEach act (table.delivered entry.1) entry.2 o = (entry.2, o) := by
    intro act entry hentry o
    rw [takeEach_eq, takenAfter, untaken_eq_nil (hdone entry hentry)]
    rfl
  unfold Processor.run
  cases processor with
  | contributesSubcomponent =>
      dsimp only
      rw [hnothing _ (_, _) List.mem_cons_self]
      dsimp only
      rw [hnothing _ (_, _) (List.mem_cons_of_mem _ List.mem_cons_self)]
  | legacy =>
      dsimp only
      rw [hnothing _ (_, _) List.mem_cons_self]
      dsimp only
      rw [hnothing _ (_, _) (List.mem_cons_of_mem _ List.mem_cons_self)]
  | mergeComponent => exact absurd rfl h
  | _ =>
      dsimp only
      rw [hnothing _ (_, _) List.mem_cons_self]

theorem inert_of_attempts {taken : Taken} {file : SourceFile}
    (h : file ∈ written (processor.attempts options table taken)) : file.Inert := by
  cases processor with
  | contributingAnnotations => exact inert_of_attemptEach givesInert_markers h
  | contributesTo => exact inert_of_attemptEach (givesLookups_interface table _).givesInert h
  | contributesBinding => exact inert_of_attemptEach (givesLookups_binding table _).givesInert h
  | contributesSubcomponent =>
      unfold attempts at h
      rw [written_append, List.mem_append] at h
      rcases h with h | h
      · exact inert_of_attemptEach (givesLookups_subcomponent table).givesInert h
      · exact inert_of_attemptEach (givesLookups_strayFactoryCheck table).givesInert h
  | legacy =>
      unfold attempts at h
      rw [written_append, List.mem_append] at h
      rcases h with h | h <;>
        exact inert_of_attemptEach (givesLookups_legacy table options _).givesInert h
  | mergeComponent => exact nomatch h

end Processor

end ScopeMerge
