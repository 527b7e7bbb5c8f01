import ScopeMerge.Proofs.Deeds
import ScopeMerge.Proofs.Refusals

/-!
# One malformed contribution says nothing about the others

Three processors make one attempt for each declaration with their annotation: for custom
annotations, for interfaces and for bindings. A host can run such a *recorder* any number
of times, on any table and with any output. Between two runs nothing of it is left but
the names it has taken.

* `turns` is a sequence of runs, and `attempted` says which declarations a run looks at:
  those whose names it is given for the first time (`mem_names_iff`);
* `parts` divides what a run adds to the output among the declarations that were
  attempted (`output_after`). A part depends on its own declaration and on which of its
  own identities are taken, and on nothing else (`part_congr`). One that is refused takes
  no identity, so the other parts are as if it were not there (`filter_partsOf`);
* `Isolates` says what this means for all the runs together.
-/

namespace ScopeMerge

open Vocabulary Contribution Round

/-! ## Offering files -/

/-- Files that are offered one after the other: one whose identity is free is written, and any other
one is reported and changes nothing else. -/
inductive Offered : List FileId → List SourceFile → List SourceFile → List Diagnostic → Prop
  | nil {taken : List FileId} : Offered taken [] [] []
  | written {taken : List FileId} {file : SourceFile} {rest files : List SourceFile}
      {entries : List Diagnostic} (hfree : file.id ∉ taken)
      (hrest : Offered (taken ++ [file.id]) rest files entries) :
      Offered taken (file :: rest) (file :: files) entries
  | refused {taken : List FileId} {file : SourceFile} {rest files : List SourceFile}
      {entries : List Diagnostic} (htaken : file.id ∈ taken)
      (hrest : Offered taken rest files entries) :
      Offered taken (file :: rest) files (.ofError (.fileAlreadyExists file.id) :: entries)

theorem Deed.offered (taken : List FileId) (fs : List SourceFile) :
    Offered taken fs (files taken (fs.map .offer)) (entries taken (fs.map .offer)) := by
  induction fs generalizing taken with
  | nil => exact .nil
  | cons file rest ih =>
      rw [List.map_cons, files, entries]
      by_cases htaken : file.id ∈ taken
      · rw [if_pos htaken, if_pos htaken]
        exact .refused htaken (ih taken)
      · rw [if_neg htaken, if_neg htaken]
        exact .written htaken (ih _)

/-! ## Recorders -/

/-- The processors that make one attempt for each declaration with one annotation. -/
inductive Recorder where
  | annotations
  | interfaces
  | bindings

namespace Recorder

def processor : Recorder → Processor
  | annotations => .contributingAnnotations
  | interfaces => .contributesTo
  | bindings => .contributesBinding

/-- The annotation that a recorder looks for. -/
def annotation : Recorder → Name
  | annotations => contributingAnnotation
  | interfaces => contributesTo
  | bindings => contributesBinding

/-- What a recorder makes of a declaration. -/
def contribute (table : SymbolTable) : Recorder → Declaration → Outcome
  | annotations => markers
  | interfaces => interfaceLookups table contributesTo
  | bindings => bindingLookups table contributesBinding

/-- The names that a recorder has taken. -/
def names (taken : Taken) : Recorder → List Name
  | annotations => taken.annotations
  | interfaces => taken.interfaces
  | bindings => taken.bindings

/-- What a recorder is run on. -/
structure Call where
  options : Options
  table : SymbolTable
  /-- What was put out before, by whomever. -/
  output : Output

/-- One run of a recorder. -/
structure Turn where
  call : Call
  /-- What was taken before. -/
  taken : Taken

/-- What one declaration adds to the output. -/
structure Part where
  declaration : Declaration
  /-- The identities that are taken when it is the declaration's turn. -/
  taken : List FileId
  files : List SourceFile
  entries : List Diagnostic

variable {r : Recorder} {calls : List Call} {turn : Turn} {taken : Taken} {xs ys : List Turn}
  {d : Declaration} {name : Name} {table table' : SymbolTable}

/-- What there is after a run. -/
def Turn.after (r : Recorder) (turn : Turn) : Workspace :=
  (r.processor.run turn.call.options turn.call.table
    { taken := turn.taken, output := turn.call.output }).1

/-- The declarations that a run is given. -/
def Turn.delivered (r : Recorder) (turn : Turn) : List Declaration :=
  turn.call.table.delivered r.annotation

/-- The declarations that a run attempts. -/
def Turn.attempted (r : Recorder) (turn : Turn) : List Declaration :=
  untaken (r.names turn.taken) (turn.delivered r)

/-- Runs of a recorder one after the other. -/
def turns (r : Recorder) : Taken → List Call → List Turn
  | _, [] => []
  | taken, call :: rest => ⟨call, taken⟩ :: turns r (Turn.after r ⟨call, taken⟩).taken rest

/-- The names of all declarations that some runs attempt. -/
def attemptedNames (r : Recorder) (turns : List Turn) : List Name :=
  (turns.flatMap (·.attempted r)).map (·.name)

/-- The part of one declaration. -/
def part (r : Recorder) (table : SymbolTable) (taken : List FileId) (d : Declaration) : Part :=
  { declaration := d
    taken
    files := Deed.files taken (Deed.ofOutcome (r.contribute table d))
    entries := Deed.entries taken (Deed.ofOutcome (r.contribute table d)) }

/-- The parts of some declarations, one after the other. -/
def partsOf (r : Recorder) (table : SymbolTable) : List FileId → List Declaration → List Part
  | _, [] => []
  | taken, d :: rest =>
    r.part table taken d ::
      partsOf r table (taken ++ (r.part table taken d).files.map (·.id)) rest

/-- The parts of the declarations that a run attempts. -/
def Turn.parts (r : Recorder) (turn : Turn) : List Part :=
  r.partsOf turn.call.table turn.call.output.ids (turn.attempted r)

/-! ## One run -/

theorem names_after (r : Recorder) (turn : Turn) :
    r.names (turn.after r).taken = takenAfter (r.names turn.taken) (turn.delivered r) := by
  unfold Turn.after Processor.run
  cases r with
  | annotations | interfaces | bindings =>
      simp only [processor]
      rw [takeEach_eq]
      rfl

theorem mem_names_after :
    name ∈ r.names (turn.after r).taken ↔
      name ∈ r.names turn.taken ∨ name ∈ (turn.attempted r).map (·.name) := by
  rw [names_after, takenAfter, List.mem_append, List.mem_reverse, or_comm]
  rfl

theorem deeds_processor (r : Recorder) (options : Options) (table : SymbolTable) (taken : Taken) :
    r.processor.deeds options table taken =
      (untaken (r.names taken) (table.delivered r.annotation)).flatMap fun d =>
        Deed.ofOutcome (r.contribute table d) := by
  cases r <;> rfl

theorem map_declaration_partsOf (taken : List FileId) (ds : List Declaration) :
    (r.partsOf table taken ds).map (·.declaration) = ds := by
  induction ds generalizing taken with
  | nil => rfl
  | cons d rest ih =>
      rw [partsOf, List.map_cons, ih]
      rfl

/-- The parts are all that the deeds add. -/
theorem deeds_eq_parts (r : Recorder) (table : SymbolTable) (taken : List FileId)
    (ds : List Declaration) :
    Deed.files taken (ds.flatMap fun d => Deed.ofOutcome (r.contribute table d)) =
        (r.partsOf table taken ds).flatMap (·.files) ∧
      Deed.entries taken (ds.flatMap fun d => Deed.ofOutcome (r.contribute table d)) =
        (r.partsOf table taken ds).flatMap (·.entries) := by
  induction ds generalizing taken with
  | nil => exact ⟨rfl, rfl⟩
  | cons d rest ih =>
      obtain ⟨hfiles, hentries⟩ := ih (taken ++ (r.part table taken d).files.map (·.id))
      rw [List.flatMap_cons, Deed.files_append, Deed.entries_append, partsOf, List.flatMap_cons,
        List.flatMap_cons, ← hfiles, ← hentries]
      exact ⟨rfl, rfl⟩

/-- **A run adds the parts of the declarations it attempts, one after the other.** -/
theorem output_after (r : Recorder) (turn : Turn) :
    (turn.after r).output =
      { files := turn.call.output.files ++ (turn.parts r).flatMap (·.files)
        diagnostics := turn.call.output.diagnostics ++ (turn.parts r).flatMap (·.entries) } := by
  have hrecords : r.processor ≠ .mergeComponent := by
    cases r <;> decide
  obtain ⟨hfiles, hentries⟩ :=
    deeds_eq_parts r turn.call.table turn.call.output.ids (turn.attempted r)
  unfold Turn.after
  rw [Processor.output_run hrecords, deeds_processor, Deed.foldl_perform]
  unfold Turn.parts
  rw [← hfiles, ← hentries]
  rfl

/-- When it is a declaration's turn, the identities are taken that were taken before the run, and
those of the files that the earlier parts added. -/
theorem taken_of_partsOf {taken : List FileId} {ds : List Declaration} {before after : List Part}
    {p : Part} (h : r.partsOf table taken ds = before ++ p :: after) :
    p = r.part table (taken ++ (before.flatMap (·.files)).map (·.id)) p.declaration := by
  induction before generalizing taken ds with
  | nil =>
      cases ds with
      | nil => cases h
      | cons d rest =>
          rw [partsOf, List.nil_append] at h
          obtain ⟨rfl, _⟩ := List.cons.inj h
          simp [part]
  | cons first before ih =>
      cases ds with
      | nil => cases h
      | cons d rest =>
          rw [partsOf, List.cons_append] at h
          obtain ⟨rfl, hrest⟩ := List.cons.inj h
          have hp := ih hrest
          rwa [List.append_assoc, ← List.map_append, ← List.flatMap_cons] at hp

/-- One that is refused adds no file, so for the others it is as if it were not there. -/
theorem filter_partsOf (taken : List FileId) (ds : List Declaration) :
    (r.partsOf table taken ds).filter (fun p => (r.contribute table p.declaration).isOk) =
      r.partsOf table taken (ds.filter fun d => (r.contribute table d).isOk) := by
  induction ds generalizing taken with
  | nil => rfl
  | cons d rest ih =>
      rw [partsOf, List.filter_cons, List.filter_cons]
      cases hresult : r.contribute table d with
      | ok es =>
          rw [if_pos (by simp [part, hresult, Except.isOk, Except.toBool]),
            if_pos (by simp [Except.isOk, Except.toBool]), ih, partsOf]
      | error error =>
          have hnone : (r.part table taken d).files = [] := by
            unfold part
            rw [hresult]
            rfl
          rw [if_neg (by simp [part, hresult, Except.isOk, Except.toBool]),
            if_neg (by simp [Except.isOk, Except.toBool]), ih, hnone, List.map_nil,
            List.append_nil]

/-! ## All the runs -/

/-- Before a run the names are taken that were attempted in an earlier one. -/
theorem mem_names_iff (h : r.turns taken calls = xs ++ turn :: ys) :
    name ∈ r.names turn.taken ↔ name ∈ r.names taken ∨ name ∈ r.attemptedNames xs := by
  induction xs generalizing taken calls with
  | nil =>
      cases calls with
      | nil => cases h
      | cons call rest =>
          rw [turns, List.nil_append] at h
          obtain ⟨rfl, _⟩ := List.cons.inj h
          simp [attemptedNames]
  | cons first xs ih =>
      cases calls with
      | nil => cases h
      | cons call rest =>
          rw [turns, List.cons_append] at h
          obtain ⟨rfl, hrest⟩ := List.cons.inj h
          rw [ih hrest, mem_names_after, or_assoc]
          unfold attemptedNames
          rw [List.flatMap_cons, List.map_append, List.mem_append]

theorem nodup_attemptedNames (r : Recorder) (taken : Taken) (calls : List Call) :
    (r.attemptedNames (r.turns taken calls)).Nodup ∧
      ∀ name ∈ r.attemptedNames (r.turns taken calls), name ∉ r.names taken := by
  induction calls generalizing taken with
  | nil => exact ⟨List.nodup_nil, fun _ h => absurd h List.not_mem_nil⟩
  | cons call rest ih =>
      obtain ⟨hnodup, hfresh⟩ :=
        nodup_names_untaken (r.names taken) (Turn.delivered r ⟨call, taken⟩)
      obtain ⟨hnodup', hfresh'⟩ := ih (Turn.after r ⟨call, taken⟩).taken
      unfold attemptedNames at hnodup' hfresh' ⊢
      rw [turns, List.flatMap_cons, List.map_append]
      refine ⟨?_, ?_⟩
      · rw [List.nodup_append]
        refine ⟨hnodup, hnodup', ?_⟩
        rintro name hname _ hlater rfl
        exact hfresh' name hlater (mem_names_after.mpr (Or.inr hname))
      · intro name hname hold
        rcases List.mem_append.mp hname with hfirst | hlater
        · obtain ⟨d, hd, rfl⟩ := List.mem_map.mp hfirst
          exact hfresh d hd hold
        · exact hfresh' name hlater (mem_names_after.mpr (Or.inl hold))

/-! ## One declaration -/

variable {error : MergeError}

/-- What is wrong with a declaration is reported at the declaration. -/
theorem symbol?_of_contribute (h : r.contribute table d = .error error) :
    error.symbol? = some d.name := by
  cases r with
  | annotations => exact symbol?_of_markers h
  | interfaces => exact symbol?_of_interfaceLookups h
  | bindings => exact symbol?_of_bindingLookups h

theorem contribute_congr (h : SameReading table table' d) :
    r.contribute table d = r.contribute table' d := by
  cases r with
  | annotations => rfl
  | interfaces => exact interfaceLookups_congr h _
  | bindings => exact bindingLookups_congr h _

/-- **What a declaration adds is decided by its annotation classes and by which of its own
identities are taken.** -/
theorem part_congr {taken taken' : List FileId} (hreading : SameReading table table' d)
    (htaken : ∀ ds, r.contribute table d = .ok ds →
      ∀ e ∈ ds, FileId.generated e.name ∈ taken ↔ FileId.generated e.name ∈ taken') :
    (r.part table taken d).files = (r.part table' taken' d).files ∧
      (r.part table taken d).entries = (r.part table' taken' d).entries := by
  unfold part
  rw [← contribute_congr hreading]
  refine Deed.added_congr ?_
  rintro id ⟨file, hfile, rfl⟩
  cases hresult : r.contribute table d with
  | error error =>
      rw [hresult, Deed.ofOutcome] at hfile
      cases List.mem_singleton.mp hfile
  | ok ds =>
      rw [hresult, Deed.ofOutcome] at hfile
      obtain ⟨e, he, hsame⟩ := List.mem_map.mp hfile
      obtain rfl := Deed.offer.inj hsame
      exact htaken ds hresult e he

/-! ## The runs together -/

/-- What a recorder makes of one declaration says nothing about any other. -/
structure Isolates (r : Recorder) (turns : List Turn) : Prop where
  /-- No name is attempted twice, in whichever runs. -/
  once : (r.attemptedNames turns).Nodup
  /-- A run attempts what it is given, in the order in which it is given. -/
  inOrder : ∀ turn ∈ turns, (turn.attempted r).Sublist (turn.delivered r)
  /-- Whatever a run is given is attempted by it, unless an earlier one did. -/
  all : ∀ xs turn ys, turns = xs ++ turn :: ys →
    ∀ d ∈ turn.delivered r, d.name ∈ r.attemptedNames (xs ++ [turn])
  /-- A name stands for the declaration that the table finds by it. -/
  named : ∀ turn ∈ turns, ∀ d ∈ turn.attempted r, turn.call.table.find? d.name = some d
  /-- Each declaration that is attempted adds a part, and nothing else is added. -/
  divided : ∀ turn ∈ turns, (turn.parts r).map (·.declaration) = turn.attempted r ∧
    (turn.after r).output =
      { files := turn.call.output.files ++ (turn.parts r).flatMap (·.files)
        diagnostics := turn.call.output.diagnostics ++ (turn.parts r).flatMap (·.entries) }
  /-- When it is a declaration's turn, the identities are taken of what was there before and of what
  the earlier parts of the run added. -/
  taken : ∀ turn ∈ turns, ∀ before p after, turn.parts r = before ++ p :: after →
    p.taken = turn.call.output.ids ++ (before.flatMap (·.files)).map (·.id)
  /-- One that is refused adds one error, at itself, and no file. -/
  refused : ∀ turn ∈ turns, ∀ p ∈ turn.parts r, ∀ error,
    r.contribute turn.call.table p.declaration = .error error →
      error.symbol? = some p.declaration.name ∧ p.files = [] ∧ p.entries = [.ofError error]
  /-- One that is accepted adds its files, but for those whose identity is taken. -/
  accepted : ∀ turn ∈ turns, ∀ p ∈ turn.parts r, ∀ ds,
    r.contribute turn.call.table p.declaration = .ok ds →
      Offered p.taken (ds.map fun e => .generated e) p.files p.entries
  /-- Those that are accepted add what they would add if those that are refused were not there. -/
  undisturbed : ∀ turn ∈ turns,
    (turn.parts r).filter (fun p => (r.contribute turn.call.table p.declaration).isOk) =
      r.partsOf turn.call.table turn.call.output.ids
        ((turn.attempted r).filter fun d => (r.contribute turn.call.table d).isOk)
  /-- A run that is given nothing new adds nothing. -/
  again : ∀ xs turn ys, turns = xs ++ turn :: ys →
    (∀ d ∈ turn.delivered r, d.name ∈ r.attemptedNames xs) →
      (turn.after r).output = turn.call.output

/-- A part is what its declaration makes it, with the identities that were taken then. -/
theorem eq_part_of_mem {turn : Turn} {p : Part} (h : p ∈ turn.parts r) :
    p = r.part turn.call.table p.taken p.declaration := by
  obtain ⟨before, after, hsplit⟩ := List.append_of_mem h
  have hp := taken_of_partsOf hsplit
  rw [hp]
  rfl

theorem isolates_turns (r : Recorder) (calls : List Call) : r.Isolates (r.turns {} calls) where
  once := (r.nodup_attemptedNames {} calls).1
  inOrder := fun turn _ => untaken_sublist _ _
  all := by
    intro xs turn ys hsplit d hd
    have hstart : r.names {} = [] := by
      cases r <;> rfl
    -- after the run its name is taken, and it was attempted then or before
    have hafter : d.name ∈ r.names (turn.after r).taken := by
      rw [names_after]
      exact name_mem_takenAfter hd
    rw [mem_names_after, mem_names_iff hsplit, hstart] at hafter
    unfold attemptedNames
    rw [List.flatMap_append, List.map_append, List.mem_append, List.flatMap_singleton]
    rcases hafter with (hnil | hbefore) | hnow
    · exact absurd hnil List.not_mem_nil
    · exact Or.inl hbefore
    · exact Or.inr hnow
  named := by
    intro turn _ d hd
    exact SymbolTable.find?_of_delivered ((untaken_sublist _ _).subset hd)
  divided := fun turn _ => ⟨map_declaration_partsOf _ _, output_after r turn⟩
  taken := by
    intro turn _ before p after hsplit
    rw [taken_of_partsOf hsplit]
    rfl
  refused := by
    intro turn _ p hp error herror
    refine ⟨symbol?_of_contribute herror, ?_⟩
    rw [eq_part_of_mem hp, part, herror]
    exact ⟨rfl, rfl⟩
  accepted := by
    intro turn _ p hp ds hds
    have hoffered := Deed.offered p.taken (ds.map fun e => .generated e)
    rw [List.map_map] at hoffered
    rw [eq_part_of_mem hp, part, hds]
    exact hoffered
  undisturbed := fun turn _ => filter_partsOf _ _
  again := by
    intro xs turn ys hsplit hall
    have hnone : turn.attempted r = [] :=
      untaken_eq_nil fun d hd => (mem_names_iff hsplit).mpr (Or.inr (hall d hd))
    rw [output_after]
    unfold Turn.parts
    rw [hnone]
    simp [partsOf]

/-- **A malformed contribution is reported by itself.** However often a recorder is run, on whatever
tables and outputs, it attempts each declaration that it is given once and in order; what is refused
adds one error at its declaration, and what is accepted adds its files unless their identities are
taken, just as it would without the refused ones. Two declarations that are the same, in whatever
runs and among whatever others, add the same if their annotation classes say the same and the same
ones of their own identities are taken. -/
theorem contributions_are_isolated (r : Recorder) (calls : List Call) :
    r.Isolates (r.turns {} calls) ∧
      ∀ others, ∀ turn ∈ r.turns {} calls, ∀ other ∈ r.turns {} others,
        ∀ p ∈ turn.parts r, ∀ q ∈ other.parts r, q.declaration = p.declaration →
          SameReading turn.call.table other.call.table p.declaration →
          (∀ ds, r.contribute turn.call.table p.declaration = .ok ds →
            ∀ e ∈ ds, FileId.generated e.name ∈ p.taken ↔ FileId.generated e.name ∈ q.taken) →
          q.files = p.files ∧ q.entries = p.entries := by
  refine ⟨isolates_turns r calls, ?_⟩
  intro others turn _ other _ p hp q hq hsame hreading htaken
  obtain ⟨hfiles, hentries⟩ := part_congr hreading htaken
  rw [eq_part_of_mem hp, eq_part_of_mem hq, hsame]
  exact ⟨hfiles.symm, hentries.symm⟩

end Recorder

namespace Sample

open Recorder

/-- An interface that cannot be contributed, because it is not public. -/
def hiddenGreeter : Declaration :=
  { Declaration.topLevel .interface "com.lib" "HiddenGreeter" with
    visibility := .internalAccess
    annotations := [forScope contributesTo] }

-- the malformed one comes first and the other one is attempted all the same, each of them once
example :
    let file : SourceFile := { id := ⟨"Greeter.kt"⟩, declarations := [hiddenGreeter, greeter] }
    let table := (SymbolTable.initial.append [file] true).beginRound []
    let call : Call := { options := {}, table, output := {} }
    (interfaces.turns {} [call, call]).map (fun turn => (turn.attempted interfaces).map (·.name)) =
      [[hiddenGreeter.name, greeter.name], []] := by
  decide

end Sample

end ScopeMerge
