import ScopeMerge.Proofs.Correspondence
import ScopeMerge.Proofs.Cycles

/-!
# What can be wrong in a merge

A subcomponent is checked twice: from the declaration when it is contributed, and
from its factory when a merge meets the factory's lookup. The first check decides
whether there is a lookup at all. This file shows that the second one adds
nothing. Where no input is a lookup, every lookup of a subcomponent was written
for a source that had passed the check, and the way back from it, along the origin
to the factory and from the factory to its parent, ends at that source and gives
the same shape (`shapeOf_of_written`).

So a merge has two ways to fail, neither to do with the make of a subcomponent:
the request cannot be understood, or a subcomponent is met inside itself.
-/

namespace ScopeMerge

open Vocabulary Checking Attempt

/-! ## Requests that cannot be understood -/

/-- The errors that say why a declaration has no scope. -/
def MergeError.isScopeError : MergeError → Bool
  | missingScope _ | noScopeArgument _ _ | conflictingScopes _ _ _ | scopeMismatch _ _ _
  | redundantExplicitScope _ _ => true
  | _ => false

variable {t : SymbolTable} {d : Declaration} {error : MergeError}

/-- An error that says of a declaration why it has no scope. -/
def MergeError.ConcernsScopeOf (d : Declaration) (error : MergeError) : Prop :=
  error.isScopeError = true ∧ error.symbol? = some d.name

theorem Scope.ofClassLevel_error (h : ofClassLevel t d = .error error) :
    error.ConcernsScopeOf d := by
  unfold ofClassLevel at h
  split at h
  · obtain rfl := Except.error.inj h
    exact ⟨rfl, rfl⟩
  · cases h

theorem Scope.ofExplicit_error {scope : Scope} (h : ofExplicit t d scope = .error error) :
    error.ConcernsScopeOf d := by
  unfold ofExplicit at h
  split at h
  · cases h
  · split at h <;>
      · obtain rfl := Except.error.inj h
        exact ⟨rfl, rfl⟩

/-- What is wrong with the scope of a declaration is reported at the declaration. -/
theorem Scope.resolve_error (h : resolve t d = .error error) : error.ConcernsScopeOf d := by
  unfold resolve at h
  dsimp only at h
  split at h
  · obtain rfl := Except.error.inj h
    exact ⟨rfl, rfl⟩
  · split at h
    · obtain rfl := Except.error.inj h
      exact ⟨rfl, rfl⟩
    · split at h
      · exact ofClassLevel_error h
      · split at h
        · obtain rfl := Except.error.inj h
          exact ⟨rfl, rfl⟩
        · exact ofExplicit_error h

/-- A request is not understood without a scope, or without its aggregate among its supertypes. -/
theorem MergeRequest.parse_error (h : parse t d = .error error) :
    error.ConcernsScopeOf d ∨ error = .supertypeNotDeclared d.name d.aggregateName := by
  unfold parse at h
  cases hscope : Scope.resolve t d with
  | error found =>
      rw [hscope] at h
      obtain rfl := Except.error.inj h
      exact Or.inl (Scope.resolve_error hscope)
  | ok scope =>
      rw [hscope] at h
      unfold refuseUnless at h
      split at h
      · cases h
      · obtain rfl := Except.error.inj h
        exact Or.inr rfl

namespace FinalComponents

/-- Whatever is met in a merge is a visible lookup. -/
theorem Met.mem_lookups {contributions : List Declaration} {lookup : Declaration}
    (h : Met t contributions lookup) (hsub : contributions ⊆ Merge.lookups t) :
    lookup ∈ Merge.lookups t := by
  induction h with
  | listed hmem => exact hsub hmem
  | selected _ _ _ hinner _ => exact List.mem_of_mem_filter hinner

end FinalComponents

namespace Merge

open FinalComponents

/-- A request that fails is not understood, or its subcomponents cannot be finalized. -/
theorem finalize_error_cases (h : finalize t d = .error error) :
    MergeRequest.parse t d = .error error ∨ ∃ request, MergeRequest.parse t d = .ok request ∧
      generate t d.package [] d.name (select t request.scope.marker request.exclusions)
        = .error error := by
  unfold finalize at h
  cases hrequest : MergeRequest.parse t d with
  | error found =>
      rw [hrequest] at h
      exact Or.inl (congrArg _ (Except.error.inj h))
  | ok request =>
      rw [hrequest] at h
      refine Or.inr ⟨request, rfl, ?_⟩
      cases hfinals : generate t d.package [] d.name
          (select t request.scope.marker request.exclusions) with
      | error found =>
          simp only [bind, Except.bind, hfinals] at h
          exact congrArg _ (Except.error.inj h)
      | ok finals =>
          simp only [bind, Except.bind, hfinals] at h
          exact nomatch h

/-- **Where every subcomponent has a shape, a request that is understood fails on a cycle only.** -/
theorem finalize_error_of_wellShaped
    (hshaped : ∀ lookup ∈ lookups t, lookup.isSubcomponentLookup = true →
      ∃ shape, shapeOf t lookup = .ok shape)
    (h : finalize t d = .error error) :
    MergeRequest.parse t d = .error error ∨ ∃ request, ∃ path : Path,
      MergeRequest.parse t d = .ok request ∧
      Descends t (select t request.scope.marker request.exclusions) path.steps ∧
      path.Revisits [] ∧ error = .subcomponentCycle path.target (visited path.steps) := by
  rcases finalize_error_cases h with hparse | ⟨request, hrequest, hgenerate⟩
  · exact Or.inl hparse
  · have hmet : WellShaped t (select t request.scope.marker request.exclusions) :=
      fun lookup hmet hsub =>
        hshaped lookup (hmet.mem_lookups fun _ => List.mem_of_mem_filter) hsub
    obtain ⟨path, hdescends, hrevisits, rfl⟩ := revisit_of_error _ _ _ hmet hgenerate
    exact Or.inr ⟨request, path, hrequest, hdescends, hrevisits, rfl⟩

end Merge

namespace Session

open Contribution FinalComponents

variable {options : Options} {start table : SymbolTable} {state : State} {lookup : Declaration}

/-! ## From a lookup back to what was checked -/

/-- The lookup was written for a contributed subcomponent that was sound when it was first looked
at, and the table gives back all that was found then: the subcomponent, its factory with the
function, and its scope. -/
def Recovers (first table : SymbolTable) (lookup : Declaration) : Prop :=
  ∃ d ∈ first.localDeclarations, d.isAnnotatedWith contributesSubcomponent = true ∧
    subcomponentLookups first d = .ok [lookup] ∧
    ∃ shape, SubcomponentShape.ofSubcomponent first d = .ok shape ∧
      shapeOf table lookup = .ok shape

/-- A lookup of a subcomponent is emitted for a source that contributes it. -/
theorem source_of_emitted (h : .generated lookup ∈ emitted options start)
    (hsub : lookup.isSubcomponentLookup = true) :
    ∃ d ∈ start.localDeclarations, d.isAnnotatedWith contributesSubcomponent = true ∧
      subcomponentLookup start d = .ok lookup := by
  obtain ⟨channel, hchannel, d, hd, haccepts, es, hes, e, he, hfile⟩ := mem_written_emissions.mp h
  obtain ⟨_, _, hchannel⟩ := List.mem_flatMap.mp hchannel
  obtain rfl : lookup = e := by simpa [SourceFile.generated] using congrArg (·.declarations) hfile
  obtain ⟨_, hannotated, hlookup⟩ :=
    subcomponentLookup_of_contribute hchannel haccepts hes he hsub
  exact ⟨d, hd, hannotated, hlookup⟩

/-- **The way back from a lookup leads to where it came from.** -/
theorem shapeOf_of_written (hr : Ready start)
    (hdistinct : ∀ file ∈ start.files, file.DistinctNames)
    (hnone : ∀ d ∈ start.declarations, d.isLookup = false) {extra : List SourceFile}
    (hextends : table.Extends start extra) (hin : .generated lookup ∈ extra) {d : Declaration}
    (hd : d ∈ start.localDeclarations)
    (hannotated : d.isAnnotatedWith contributesSubcomponent = true)
    (hlookup : subcomponentLookup start d = .ok lookup) :
    ∃ shape, SubcomponentShape.ofSubcomponent start d = .ok shape ∧
      shapeOf table lookup = .ok shape := by
  obtain ⟨shape, scope, hshape, _, rfl⟩ := subcomponentLookup_eq_ok_iff.mp hlookup
  obtain ⟨hfind, hparent⟩ := find?_of_factory hr hdistinct
    (SubcomponentShape.factory_mem_of_ofSubcomponent hshape)
  have hfactory : shape.factory ∈ start.declarations := (SymbolTable.find?_eq_some hfind).1
  obtain ⟨_, _, _, _, _, rfl⟩ := SubcomponentShape.ofSubcomponent_eq_ok_iff.mp hshape
  refine ⟨shape, hshape, ?_⟩
  -- the origin of the lookup is the factory, and the parent of the factory is the subcomponent
  rw [@shapeOf_of_standsFor _ _ shape.factory scope ⟨rfl, rfl, rfl, rfl, Or.inr rfl⟩
    (hextends.find?_mono hfind) (hnone _ hfactory)
    (hextends.apart hfactory hin List.mem_cons_self)]
  refine SubcomponentShape.ofFactory_eq_ok_iff.mpr ⟨?_, ?_, rfl⟩
  · exact SubcomponentShape.enclosing_eq_ok_iff.mpr
      ⟨_, hparent, hextends.find?_mono (find?_of_source hr hd), hannotated⟩
  · exact SubcomponentShape.ofSubcomponent_transport (hextends.sameShape _) hshape

namespace State

/-- Between any two rounds the lookups among the generated files are those that were emitted. -/
theorem emitted_of_lookup (hr : Ready start)
    (hreaches : Reaches options { table := start } state) {file : SourceFile}
    (hfile : file ∈ state.workspace.output.files) (hmem : lookup ∈ file.declarations)
    (hlookup : lookup.isLookup = true) :
    file = .generated lookup ∧ file ∈ emitted options start := by
  have hemitted : file ∈ emitted options start := by
    rcases underway_of_reaches hr hreaches with rfl | hunderway
    · exact nomatch hfile
    · rcases hunderway.phase with hwaiting | hconcluded
      · exact hwaiting.files ▸ hfile
      · rw [hconcluded.files] at hfile
        refine (List.mem_append.mp hfile).resolve_right fun hmerged => ?_
        rw [(passive_of_merged hr hmerged lookup hmem).2] at hlookup
        exact nomatch hlookup
  obtain ⟨e, rfl, _⟩ := emitted_cases hemitted
  rw [List.mem_singleton.mp hmem]
  exact ⟨rfl, hemitted⟩

/-- Where no input is a lookup, the lookups that a round sees are those that were emitted. -/
theorem generated_of_mem_lookups (hr : Ready start)
    (hnone : ∀ d ∈ start.declarations, d.isLookup = false)
    (hreaches : Reaches options { table := start } state)
    (h : lookup ∈ Merge.lookups state.current) :
    .generated lookup ∈ state.workspace.output.files := by
  have hextends := (coherent_of_cases hr (underway_of_reaches hr hreaches)).extends
  obtain ⟨hfind, hlookup, _⟩ := (Merge.mem_lookups_iff hextends.wellFormed).mp h
  rcases hextends.find?_cases hfind with hold | ⟨file, hfile, hmem⟩
  · rw [hnone lookup (SymbolTable.find?_eq_some hold).1] at hlookup
    exact nomatch hlookup
  · exact (emitted_of_lookup hr hreaches hfile hmem hlookup).1 ▸ hfile

/-- And every one of a subcomponent leads back to it. -/
theorem recovers_of_generated (hr : Ready start)
    (hdistinct : ∀ file ∈ start.files, file.DistinctNames)
    (hnone : ∀ d ∈ start.declarations, d.isLookup = false)
    (hreaches : Reaches options { table := start } state)
    (h : .generated lookup ∈ state.workspace.output.files)
    (hsub : lookup.isSubcomponentLookup = true) :
    lookup ∈ Merge.lookups state.current ∧
      Recovers (current { table := start }) state.current lookup := by
  have hextends := (coherent_of_cases hr (underway_of_reaches hr hreaches)).extends
  have hlookup : lookup.isLookup = true := (Bool.and_eq_true_iff.mp hsub).1
  obtain ⟨_, hemitted⟩ := emitted_of_lookup hr hreaches h List.mem_cons_self hlookup
  obtain ⟨d, hd, hannotated, hwritten⟩ := source_of_emitted hemitted hsub
  obtain ⟨shape, hshape, hback⟩ :=
    shapeOf_of_written hr hdistinct hnone hextends h hd hannotated hwritten
  have hfirst : (current { table := start }).Extends start [] :=
    (coherent_start hr.wellFormed).extends
  refine ⟨?_, d, hd, hannotated, ?_, shape, ?_, hback⟩
  · refine (Merge.mem_lookups_iff hextends.wellFormed).mpr ⟨?_, hlookup, ?_⟩
    · exact SymbolTable.find?_of_mem hextends.wellFormed (hextends.extra_subset h)
        (emitted_distinct hemitted) List.mem_cons_self
    · obtain ⟨_, _, _, _, rfl⟩ := subcomponentLookup_eq_ok_iff.mp hwritten
      rfl
  · refine subcomponentLookups_transport (hfirst.sameContext d) ?_
    unfold subcomponentLookups
    rw [hwritten]
    rfl
  · exact SubcomponentShape.ofSubcomponent_transport (hfirst.sameShape d) hshape

end State

/-- **A merge fails for its wiring only.** In a compilation without lookups among the inputs, a
merge request can fail in any round in two ways: it is not understood, and then the error says why
it has no scope or that it does not extend its aggregate; or a subcomponent is met again on a path
that leads down from it, and then the error spells out the path. Every lookup that a merge can meet
was written in this compilation. Every lookup that was written for a subcomponent is one that a
merge meets, and it gives back the subcomponent, the factory with its function, and the scope that
were found sound when it was written. -/
theorem merges_fail_in_wiring_only {inputs : List Input} {n : Nat} {session : Session}
    (hload : ({ options, maxRounds := n } : Session).addAll inputs = .ok session)
    (hnamespace : ∀ d ∈ inputDeclarations inputs, d.package ≠ lookupNamespace)
    (hdistinct : ∀ file ∈ inputFiles inputs, file.DistinctNames)
    (hreaches : State.Reaches options { table := session.table } state) :
    (∀ d error, Merge.finalize state.current d = .error error →
      MergeRequest.parse state.current d = .error error ∧
          (error.ConcernsScopeOf d ∨ error = .supertypeNotDeclared d.name d.aggregateName) ∨
        ∃ request, ∃ path : Path, MergeRequest.parse state.current d = .ok request ∧
          Descends state.current
            (Merge.select state.current request.scope.marker request.exclusions) path.steps ∧
          path.Revisits [] ∧ error = .subcomponentCycle path.target (visited path.steps)) ∧
    (∀ lookup ∈ Merge.lookups state.current,
      .generated lookup ∈ state.workspace.output.files) ∧
    ∀ lookup, .generated lookup ∈ state.workspace.output.files →
      lookup.isSubcomponentLookup = true → lookup ∈ Merge.lookups state.current ∧
        Recovers (State.current { table := session.table }) state.current lookup := by
  obtain ⟨rfl, hw⟩ := (addAll_eq_ok_iff SymbolTable.initial_wellFormed).mp hload
  have hr : Ready (loadedTable inputs) := ready_loadedTable hw hdistinct
  have hnone : ∀ d ∈ (loadedTable inputs).declarations, d.isLookup = false := by
    intro d hd
    refine Bool.eq_false_iff.mpr fun hlookup => ?_
    have hpackage : d.package = lookupNamespace :=
      beq_iff_eq.mp (Bool.and_eq_true_iff.mp hlookup).1
    exact hnamespace d (isLookup_of_loaded hd hlookup) hpackage
  have hmet : ∀ lookup ∈ Merge.lookups state.current,
      .generated lookup ∈ state.workspace.output.files :=
    fun _ => State.generated_of_mem_lookups hr hnone hreaches
  have hback : ∀ lookup, .generated lookup ∈ state.workspace.output.files →
      lookup.isSubcomponentLookup = true → lookup ∈ Merge.lookups state.current ∧
        Recovers (State.current { table := loadedTable inputs }) state.current lookup :=
    fun _ => State.recovers_of_generated hr (distinctNames_loadedTable hdistinct) hnone hreaches
  refine ⟨fun d error h => ?_, hmet, hback⟩
  -- every subcomponent that is met has a shape, so only a cycle can be wrong
  refine (Merge.finalize_error_of_wellShaped (fun lookup hlookup hsub => ?_) h).imp_left
    fun hparse => ⟨hparse, MergeRequest.parse_error hparse⟩
  obtain ⟨_, _, _, _, _, shape, _, hshape⟩ := hback lookup (hmet lookup hlookup) hsub
  exact ⟨shape, hshape⟩

end Session

/-! ## A sample

The two subcomponents of the circle, in the round after their lookups were written, and a request
that merges one of them. -/

namespace Sample

open Session

/-- A request for the scope that the login is contributed to. -/
def detailRequest : Declaration :=
  { component with annotations := [withScope mergeComponent detailScope] }

/-- The state after the first round. -/
def circled : State :=
  State.next {} { table := loadedTable circle }

theorem distinct_circle : ∀ file ∈ inputFiles circle, file.DistinctNames := by
  decide

/-- The sources of the circle are sound, and nothing is merged. -/
theorem sound_circle : AllSucceed (emissions {} (loadedTable circle)) ∧
    requests {} (loadedTable circle) = [] ∧
    emitted {} (loadedTable circle) = [.generated detailLookup, .generated returningLookup] ∧
    circleTable.WellFormed := by
  decide +kernel

theorem wellFormed_circle : (loadedTable circle).WellFormed :=
  sound_circle.2.2.2.of_append

theorem ready_circle : Ready (loadedTable circle) :=
  ready_loadedTable wellFormed_circle distinct_circle

theorem attempts_circle : State.attempts {} { table := loadedTable circle }
    = emissions {} (loadedTable circle) := by
  rw [State.attempts_start ready_circle]
  unfold answers
  rw [sound_circle.2.1, List.map_nil, ite_self, List.append_nil]

theorem succeeds_circle : State.Succeeds {} { table := loadedTable circle } := by
  obtain ⟨hemits, hnone, hemitted, hfits⟩ := sound_circle
  refine State.succeeds_start ready_circle (goesThrough_of_no_requests hnone hemits ?_)
  rw [hemitted]
  exact hfits

/-- Two lookups were written, so there is another round. -/
theorem step_circle : State.step {} { table := loadedTable circle } = .ok (.continues circled) := by
  have hmore : State.isLast {} { table := loadedTable circle } = false := by
    unfold State.isLast
    rw [attempts_circle]
    show ((emitted {} (loadedTable circle)).isEmpty && _) = false
    rw [sound_circle.2.2.1]
    rfl
  refine (State.step_eq_ok_iff (State.coherent_start wellFormed_circle)).mpr
    ⟨succeeds_circle, ?_⟩
  rw [hmore]
  rfl

theorem files_circled : circled.workspace.output.files
    = [.generated detailLookup, .generated returningLookup] := by
  have hfiles := State.files_next (State.underway_of_start ready_circle succeeds_circle).clean
  rw [attempts_circle] at hfiles
  exact hfiles.trans sound_circle.2.2.1

/-- The round after sees the table of the circle. -/
theorem agrees_circled : Agrees circleTable circled.current := by
  have hcoherent := (State.underway_of_start ready_circle succeeds_circle).toCoherent
  refine SymbolTable.agrees_of_files ?_ hcoherent.extends.wellFormed
  unfold circleTable
  rw [SymbolTable.files_append, ← files_circled]
  exact hcoherent.files

/-- The request is understood, and it excludes nothing. -/
theorem reads_detailRequest :
    MergeRequest.Readable circleTable detailRequest ∧
      Scope.resolve circleTable detailRequest
        = .ok { marker := detailScope, source := .argument mergeComponent } ∧
      ((((detailRequest.annotation? mergeComponent).bind
        (MergeRequest.exclusionList? circleTable)).bind (·.asTypes?)).getD []).eraseDups = [] := by
  decide

theorem exists_error_circled :
    ∃ error, Merge.finalize circled.current detailRequest = .error error := by
  cases h : Merge.finalize circled.current detailRequest with
  | error error => exact ⟨error, rfl⟩
  | ok file =>
      rw [← Merge.finalize_eq_ok_iff_of_agrees agrees_circled] at h
      obtain ⟨request, finals, hrequest, hfinals, _⟩ := Merge.finalize_eq_ok_iff.mp h
      obtain ⟨hscope, hexclusions⟩ := MergeRequest.parse_ok hrequest
      rw [reads_detailRequest.2.1] at hscope
      have hnone : MergeRequest.exclusionsOf circleTable detailRequest = [] :=
        MergeRequest.exclusionsOf_eq_of_list reads_detailRequest.2.2 List.mergeSort_nil
      rw [← Except.ok.inj hscope, hexclusions, hnone, select_circle.2, generate_circle] at hfinals
      cases hfinals

end Sample

namespace Session

/-- The lookups of the circle lead back to its subcomponents, and a request that merges one of them
fails on a cycle. -/
theorem circle_fails_in_wiring_only : ∃ session : Session,
    ({ options := {}, maxRounds := 4 } : Session).addAll Sample.circle = .ok session ∧
      State.Reaches {} { table := session.table } Sample.circled ∧
      Recovers (State.current { table := session.table }) Sample.circled.current
        Sample.returningLookup ∧
      ∃ subcomponent lineage, Merge.finalize Sample.circled.current Sample.detailRequest
        = .error (.subcomponentCycle subcomponent lineage) := by
  have hload : ({ options := {}, maxRounds := 4 } : Session).addAll Sample.circle
      = .ok { table := loadedTable Sample.circle, options := {}, maxRounds := 4 } :=
    (addAll_eq_ok_iff SymbolTable.initial_wellFormed).mpr ⟨rfl, Sample.wellFormed_circle⟩
  have hreaches : State.Reaches {} { table := loadedTable Sample.circle } Sample.circled :=
    .round .refl Sample.step_circle
  obtain ⟨herrors, _, hback⟩ := merges_fail_in_wiring_only hload (by decide)
    Sample.distinct_circle hreaches
  refine ⟨_, hload, hreaches, (hback Sample.returningLookup ?_ ?_).2, ?_⟩
  · rw [Sample.files_circled]
    exact List.mem_cons_of_mem _ List.mem_cons_self
  · exact Sample.isSubcomponentLookup_lookupOf _ _ _
  · obtain ⟨error, herror⟩ := Sample.exists_error_circled
    obtain ⟨request, hrequest⟩ := MergeRequest.exists_parse_iff.mpr Sample.reads_detailRequest.1
    rw [MergeRequest.parse_congr (Sample.agrees_circled.reading _)] at hrequest
    rcases herrors _ _ herror with ⟨hparse, _⟩ | ⟨_, path, _, _, _, rfl⟩
    · rw [hrequest] at hparse
      cases hparse
    · exact ⟨_, _, herror⟩

end Session

end ScopeMerge
