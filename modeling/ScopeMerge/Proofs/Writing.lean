import ScopeMerge.Round
import Mathlib.Data.List.Basic

/-!
# What a processor writes

A processor makes one attempt after the other: each writes some files or records
an error. Which error it was, in what words, and what warnings stand beside it
makes no difference to how a compilation goes on, so an *attempt* is the files or
nothing.

`Writes` says what a sequence of attempts does to an output. It is free of errors
afterwards exactly when it was before, every attempt has its files, and no file
identity is taken twice; and then the files of all attempts follow the old ones.
The one error that an attempt with its files can lead to is that an identity is
taken.
-/

namespace ScopeMerge

/-- The files that an attempt writes, none if it is refused. -/
abbrev Attempt := Option (List SourceFile)

namespace Attempt

/-- What a contribution amounts to, with one file for each lookup. -/
def ofOutcome (outcome : Contribution.Outcome) : Attempt :=
  outcome.toOption.map (·.map fun d => .generated d)

/-- What a finalized merge request amounts to. -/
def ofResult (result : Except MergeError SourceFile) : Attempt :=
  result.toOption.map ([·])

/-- The files that some attempts write. -/
def written (attempts : List Attempt) : List SourceFile :=
  attempts.flatMap (·.getD [])

/-- Every attempt has its files. -/
def AllSucceed (attempts : List Attempt) : Prop :=
  ∀ attempt ∈ attempts, attempt.isSome = true

instance (attempts : List Attempt) : Decidable (AllSucceed attempts) :=
  inferInstanceAs (Decidable (∀ attempt ∈ attempts, attempt.isSome = true))

theorem written_append (as bs : List Attempt) : written (as ++ bs) = written as ++ written bs :=
  List.flatMap_append

theorem allSucceed_append {as bs : List Attempt} :
    AllSucceed (as ++ bs) ↔ AllSucceed as ∧ AllSucceed bs :=
  List.forall_mem_append

theorem mem_written {attempts : List Attempt} {file : SourceFile} :
    file ∈ written attempts ↔ ∃ files, some files ∈ attempts ∧ file ∈ files := by
  unfold written
  rw [List.mem_flatMap]
  refine ⟨?_, ?_⟩
  · intro h
    obtain ⟨attempt, hattempt, hfile⟩ := h
    cases attempt with
    | none => exact nomatch hfile
    | some files => exact ⟨files, hattempt, hfile⟩
  · intro h
    obtain ⟨files, hfiles, hfile⟩ := h
    exact ⟨some files, hfiles, hfile⟩

theorem ofOutcome_eq_some_iff {outcome : Contribution.Outcome} {files : List SourceFile} :
    ofOutcome outcome = some files ↔
      ∃ ds, outcome = .ok ds ∧ files = ds.map fun d => .generated d := by
  unfold ofOutcome
  cases outcome with
  | error e => simp [Except.toOption]
  | ok ds => simp [Except.toOption, eq_comm]

theorem ofResult_eq_some_iff {result : Except MergeError SourceFile} {files : List SourceFile} :
    ofResult result = some files ↔ ∃ file, result = .ok file ∧ files = [file] := by
  unfold ofResult
  cases result with
  | error e => simp [Except.toOption]
  | ok file => simp [Except.toOption, eq_comm]

/-- Files whose identities are not taken, neither by the old files nor among themselves. -/
def Fresh (old new : List SourceFile) : Prop :=
  new.Pairwise (fun f g => f.id ≠ g.id) ∧ ∀ g ∈ old, ∀ f ∈ new, g.id ≠ f.id

theorem fresh_append {old as bs : List SourceFile} :
    Fresh old (as ++ bs) ↔ Fresh old as ∧ Fresh (old ++ as) bs := by
  unfold Fresh
  rw [List.pairwise_append]
  refine ⟨?_, ?_⟩
  · intro h
    obtain ⟨⟨has, hbs, hab⟩, hold⟩ := h
    refine ⟨⟨has, fun g hg f hf => hold g hg f (List.mem_append_left _ hf)⟩, hbs, ?_⟩
    intro g hg f hf
    rcases List.mem_append.mp hg with hg | hg
    · exact hold g hg f (List.mem_append_right _ hf)
    · exact hab g hg f hf
  · intro h
    obtain ⟨⟨has, hold⟩, hbs, hmore⟩ := h
    refine ⟨⟨has, hbs, fun g hg f hf => hmore g (List.mem_append_right _ hg) f hf⟩, ?_⟩
    intro g hg f hf
    rcases List.mem_append.mp hf with hf | hf
    · exact hold g hg f hf
    · exact hmore g (List.mem_append_left _ hg) f hf

end Attempt

open Attempt

/-- One output results from another by some attempts. -/
structure Output.Writes (before after : Output) (attempts : List Attempt) : Prop where
  /-- When there are no errors afterwards. -/
  clean_iff : after.hasErrors = false ↔
    before.hasErrors = false ∧ AllSucceed attempts ∧ Fresh before.files (written attempts)
  /-- Where the files are if there are no errors. -/
  files : after.hasErrors = false → after.files = before.files ++ written attempts
  /-- If no attempt is refused, all that can be wrong is that an identity is taken. -/
  errors : AllSucceed attempts → ∀ entry ∈ after.diagnostics, entry.isError = true →
    entry ∈ before.diagnostics ∨
      ∃ file ∈ written attempts, entry = .ofError (.fileAlreadyExists file.id)

namespace Output.Writes

variable {o o' o'' : Output} {as bs : List Attempt}

theorem nothing (o : Output) : o.Writes o [] where
  clean_iff := by simp [AllSucceed, Fresh, written]
  files := by simp [written]
  errors := fun _ _ h _ => Or.inl h

theorem trans (h : o.Writes o' as) (h' : o'.Writes o'' bs) : o.Writes o'' (as ++ bs) where
  clean_iff := by
    rw [h'.clean_iff, h.clean_iff, allSucceed_append, written_append, fresh_append]
    refine ⟨?_, ?_⟩
    · intro hboth
      obtain ⟨⟨hclean, has, hfresh⟩, hbs, hmore⟩ := hboth
      have hfiles := h.files (h.clean_iff.mpr ⟨hclean, has, hfresh⟩)
      exact ⟨hclean, ⟨has, hbs⟩, hfresh, hfiles ▸ hmore⟩
    · intro hboth
      obtain ⟨hclean, ⟨has, hbs⟩, hfresh, hmore⟩ := hboth
      have hfiles := h.files (h.clean_iff.mpr ⟨hclean, has, hfresh⟩)
      exact ⟨⟨hclean, has, hfresh⟩, hbs, hfiles ▸ hmore⟩
  files := by
    intro hclean
    rw [h'.files hclean, h.files (h'.clean_iff.mp hclean).1, written_append, List.append_assoc]
  errors := by
    intro hall entry hentry herror
    obtain ⟨has, hbs⟩ := allSucceed_append.mp hall
    rw [written_append]
    rcases h'.errors hbs entry hentry herror with hbefore | ⟨file, hfile, hid⟩
    · refine (h.errors has entry hbefore herror).imp_right fun hnew => ?_
      obtain ⟨file, hfile, hid⟩ := hnew
      exact ⟨file, List.mem_append_left _ hfile, hid⟩
    · exact Or.inr ⟨file, List.mem_append_right _ hfile, hid⟩

/-- Only whether every attempt succeeds matters, and the files in sequence. -/
theorem regroup (h : o.Writes o' as) (hall : AllSucceed as ↔ AllSucceed bs)
    (hwritten : written as = written bs) : o.Writes o' bs where
  clean_iff := by rw [h.clean_iff, hall, hwritten]
  files := by rw [← hwritten]; exact h.files
  errors := by rw [← hwritten, ← hall]; exact h.errors

theorem report (o : Output) (error : MergeError) : o.Writes (o.report error) [none] where
  clean_iff := by
    simp [Output.report, Output.hasErrors, AllSucceed, Diagnostic.isError, Diagnostic.ofError]
  files := by simp [Output.report, Output.hasErrors, Diagnostic.isError, Diagnostic.ofError]
  errors := by simp [AllSucceed]

theorem warn (o : Output) (message : String) (symbol : Option Name) :
    o.Writes (o.warn message symbol) [] where
  clean_iff := by
    simp [Output.warn, Output.hasErrors, AllSucceed, Fresh, written, Diagnostic.isError,
      Diagnostic.warning]
  files := by simp [Output.warn, written]
  errors := by
    intro _ entry hentry herror
    rcases List.mem_append.mp hentry with hold | hnew
    · exact Or.inl hold
    · rw [List.mem_singleton.mp hnew] at herror
      exact nomatch herror

theorem emit (o : Output) (file : SourceFile) : o.Writes (o.emit file) [some [file]] := by
  unfold Output.emit Output.create
  cases htaken : o.files.any (·.id = file.id) with
  | true =>
      rw [if_pos rfl]
      obtain ⟨g, hg, hid⟩ := List.any_eq_true.mp htaken
      refine ⟨⟨fun h => ?_, ?_⟩, fun h => ?_, ?_⟩
      · exact absurd h (by
          simp [Output.report, Output.hasErrors, Diagnostic.isError, Diagnostic.ofError])
      · intro h
        obtain ⟨_, _, _, hfresh⟩ := h
        exact absurd (by simpa using hid) (hfresh g hg file (by simp [written]))
      · exact absurd h (by
          simp [Output.report, Output.hasErrors, Diagnostic.isError, Diagnostic.ofError])
      · intro _ entry hentry _
        rcases List.mem_append.mp hentry with hold | hnew
        · exact Or.inl hold
        · exact Or.inr ⟨file, by simp [written], List.mem_singleton.mp hnew⟩
  | false =>
      rw [if_neg (by simp)]
      have hfree : ∀ g ∈ o.files, g.id ≠ file.id := by simpa using htaken
      refine ⟨⟨fun h => ⟨h, by simp [AllSucceed], by simp [written], ?_⟩, fun h => h.1⟩,
        fun _ => ?_, fun _ _ h _ => Or.inl h⟩
      · intro g hg f hf
        rw [List.mem_singleton.mp hf]
        exact hfree g hg
      · simp [written]

/-- Attempts made one after the other for the elements of a list. -/
theorem foldl {α : Type} {act : Output → α → Output} (attempt : α → Attempt) (xs : List α)
    (h : ∀ o : Output, ∀ x ∈ xs, o.Writes (act o x) [attempt x]) (o : Output) :
    o.Writes (xs.foldl act o) (xs.map attempt) := by
  induction xs generalizing o with
  | nil => exact nothing o
  | cons x rest ih =>
      rw [List.foldl_cons, List.map_cons, ← List.singleton_append]
      exact (h o x List.mem_cons_self).trans
        (ih (fun o y hy => h o y (List.mem_cons_of_mem _ hy)) (act o x))

theorem absorb (o : Output) (outcome : Contribution.Outcome) :
    o.Writes (o.absorb outcome) [ofOutcome outcome] := by
  cases outcome with
  | error e => exact report o e
  | ok ds =>
      have hfold : o.Writes (o.emitEach ds) (ds.map fun d => some [SourceFile.generated d]) :=
        foldl _ _ (fun o d _ => emit o (.generated d)) o
      refine hfold.regroup ?_ ?_
      · simp [AllSucceed, ofOutcome, Except.toOption]
      · simp [written, ofOutcome, Except.toOption, List.flatMap_map, ← List.map_eq_flatMap]

end Output.Writes

/-! ## Legacy annotations -/

/-- What a legacy annotation contributes: unsupported parameters are refused unless they are
ignored. -/
def LegacyAnnotation.outcome (options : Options) (table : SymbolTable) (legacy : LegacyAnnotation)
    (d : Declaration) : Contribution.Outcome :=
  match legacy.complaints table d with
  | [] => legacy.lookups table d
  | complaint :: _ =>
    if options.ignoreUnsupportedLegacyParameters then legacy.lookups table d
    else .error complaint

theorem Output.Writes.recordLegacy (options : Options) (table : SymbolTable)
    (legacy : LegacyAnnotation) (o : Output) (d : Declaration) :
    o.Writes (Round.recordLegacy options table legacy o d)
      [ofOutcome (legacy.outcome options table d)] := by
  unfold Round.recordLegacy LegacyAnnotation.outcome
  dsimp only
  cases hcomplaints : legacy.complaints table d with
  | nil => cases options.ignoreUnsupportedLegacyParameters <;> exact absorb o _
  | cons complaint more =>
      cases options.ignoreUnsupportedLegacyParameters with
      | true =>
          -- the warnings leave no trace, then it is the attempt of a native annotation
          have hwarn : ∀ (complaints : List MergeError) (o : Output),
              o.Writes (complaints.foldl (fun warned error =>
                warned.warn (error.message ++ "; ignored") (some d.name)) o) [] := by
            intro complaints
            induction complaints with
            | nil => exact nothing
            | cons error rest ih => exact fun o => (warn o _ _).trans (ih _)
          exact (hwarn _ o).trans (absorb _ _)
      | false =>
          have hreports : o.Writes ((complaint :: more).foldl Output.report o)
              ((complaint :: more).map fun _ => none) :=
            foldl _ _ (fun o error _ => report o error) o
          refine hreports.regroup ?_ ?_
          · simp [AllSucceed, ofOutcome, Except.toOption]
          · simp [written, ofOutcome, Except.toOption]

theorem Output.Writes.conclude (o : Output) (finalized : Merge.Finalized) :
    o.Writes (Round.conclude o finalized) [ofResult finalized.result] := by
  unfold Round.conclude
  cases finalized.result with
  | error e => exact report o e
  | ok file => exact emit o file

/-! ## Taking each declaration once -/

namespace Round

/-- The declarations whose names were not taken before, the first of each name. -/
def untaken : List Name → List Declaration → List Declaration
  | _, [] => []
  | taken, d :: rest =>
    if taken.contains d.name then untaken taken rest else d :: untaken (d.name :: taken) rest

/-- The names that are taken after all declarations of a list were offered. -/
def takenAfter (taken : List Name) (ds : List Declaration) : List Name :=
  ((untaken taken ds).map (·.name)).reverse ++ taken

variable {act : Output → Declaration → Output} {taken : List Name} {ds : List Declaration}

theorem takeEach_eq (act : Output → Declaration → Output) (ds : List Declaration)
    (taken : List Name) (o : Output) :
    takeEach act ds taken o = (takenAfter taken ds, (untaken taken ds).foldl act o) := by
  induction ds generalizing taken o with
  | nil => simp [takeEach, takenAfter, untaken]
  | cons d rest ih =>
      unfold takenAfter at ih ⊢
      rw [takeEach, untaken]
      split
      · exact ih taken o
      · rw [ih, List.map_cons, List.reverse_cons, List.append_assoc, List.foldl_cons]
        rfl

theorem taken_subset_takenAfter {n : Name} (h : n ∈ taken) : n ∈ takenAfter taken ds :=
  List.mem_append_right _ h

/-- Everything offered counts as taken. -/
theorem name_mem_takenAfter {d : Declaration} (h : d ∈ ds) : d.name ∈ takenAfter taken ds := by
  unfold takenAfter
  induction ds generalizing taken with
  | nil => exact nomatch h
  | cons e rest ih =>
      rw [untaken]
      split
      · next htaken =>
        rcases List.mem_cons.mp h with rfl | h
        · exact List.mem_append_right _ (by simpa using htaken)
        · exact ih h
      · rcases List.mem_cons.mp h with rfl | h
        · simp
        · have hrest := @ih (e.name :: taken) h
          simp only [List.mem_append, List.mem_cons, List.map_cons, List.reverse_cons] at hrest ⊢
          tauto

theorem untaken_eq_nil (h : ∀ d ∈ ds, d.name ∈ taken) : untaken taken ds = [] := by
  induction ds with
  | nil => rfl
  | cons e rest ih =>
      rw [untaken, if_pos (by simpa using h e List.mem_cons_self)]
      exact ih fun d hd => h d (List.mem_cons_of_mem _ hd)

/-- Without repeated names, exactly what was taken before is left out. -/
theorem untaken_eq_filter (h : (ds.map (·.name)).Nodup) :
    untaken taken ds = ds.filter fun d => !taken.contains d.name := by
  induction ds generalizing taken with
  | nil => rfl
  | cons e rest ih =>
      rw [List.map_cons, List.nodup_cons] at h
      rw [untaken, List.filter_cons]
      split
      · next htaken =>
        rw [htaken, if_neg (by simp)]
        exact ih h.2
      · next htaken =>
        rw [if_pos (by simpa using htaken), ih h.2]
        congr 1
        -- `e` is the only declaration of its name
        refine List.filter_congr fun d hd => ?_
        have hne : d.name ≠ e.name := fun he => h.1 (List.mem_map.mpr ⟨d, hd, he⟩)
        simp [hne]

end Round

end ScopeMerge
