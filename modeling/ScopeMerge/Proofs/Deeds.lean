import ScopeMerge.Proofs.Rounds
import Mathlib.Data.List.Induction

/-!
# What a round does to an output, deed by deed

A processor does three things to an output: it offers a file, it complains, it warns.
A round is a list of such *deeds*, and which ones they are depends on the table and on
what was taken before, but on nothing that the output holds (`output_run`). All that
the output decides is whether an offered file is written.

`Deed.files` and `Deed.entries` say what a list of deeds adds, given the identities that
are taken already. Two facts carry everything that is said about reports later:

* `mem_entries_iff` says where an entry comes from: it was complained or warned of, or
  it is for a file whose identity was taken, before or by an earlier deed;
* `added_congr` says that nothing but the identities of the files on offer is asked of
  the output.
-/

namespace ScopeMerge

open Vocabulary Contribution

/-- Something that is done to an output. -/
inductive Deed where
  | offer (file : SourceFile)
  | complain (error : MergeError)
  | warn (message : String) (symbol : Option Name)

namespace Output

/-- The identities that are taken in an output. -/
def ids (o : Output) : List FileId :=
  o.files.map (·.id)

/-- An output after a deed. -/
def perform (o : Output) : Deed → Output
  | .offer file => o.emit file
  | .complain error => o.report error
  | .warn message symbol => o.warn message symbol

variable {o : Output} {file : SourceFile}

theorem emit_of_taken (h : file.id ∈ o.ids) :
    o.emit file = o.report (.fileAlreadyExists file.id) := by
  obtain ⟨g, hg, hid⟩ := List.mem_map.mp h
  have hany : o.files.any (·.id = file.id) = true :=
    List.any_eq_true.mpr ⟨g, hg, by simpa using hid⟩
  unfold Output.emit Output.create
  rw [if_pos hany]

theorem emit_of_free (h : file.id ∉ o.ids) :
    o.emit file = { o with files := o.files ++ [file] } := by
  have hany : o.files.any (·.id = file.id) = false := by
    rw [List.any_eq_false]
    intro g hg hid
    exact h (List.mem_map.mpr ⟨g, hg, of_decide_eq_true hid⟩)
  unfold Output.emit Output.create
  rw [if_neg (by rw [hany]; exact Bool.false_ne_true)]

end Output

namespace Deed

/-! ## What deeds add -/

/-- The files that some deeds add, where some identities are taken already. -/
def files : List FileId → List Deed → List SourceFile
  | _, [] => []
  | taken, offer file :: rest =>
    if file.id ∈ taken then files taken rest else file :: files (taken ++ [file.id]) rest
  | taken, complain _ :: rest => files taken rest
  | taken, warn _ _ :: rest => files taken rest

/-- The entries that some deeds add, where some identities are taken already. -/
def entries : List FileId → List Deed → List Diagnostic
  | _, [] => []
  | taken, offer file :: rest =>
    if file.id ∈ taken then .ofError (.fileAlreadyExists file.id) :: entries taken rest
    else entries (taken ++ [file.id]) rest
  | taken, complain error :: rest => .ofError error :: entries taken rest
  | taken, warn message symbol :: rest => .warning message symbol :: entries taken rest

variable {taken taken' : List FileId} {deeds xs ys : List Deed} {entry : Diagnostic}

/-- **Deeds add to the end of an output**, and nothing that was there before changes. -/
theorem foldl_perform (deeds : List Deed) (o : Output) :
    deeds.foldl Output.perform o =
      { files := o.files ++ files o.ids deeds
        diagnostics := o.diagnostics ++ entries o.ids deeds } := by
  induction deeds generalizing o with
  | nil => simp [files, entries]
  | cons deed rest ih =>
      rw [List.foldl_cons, ih]
      cases deed with
      | offer file =>
          rw [files, entries, Output.perform]
          by_cases htaken : file.id ∈ o.ids
          · rw [if_pos htaken, if_pos htaken, Output.emit_of_taken htaken]
            simp [Output.report, Output.ids]
          · rw [if_neg htaken, if_neg htaken, Output.emit_of_free htaken]
            simp [Output.ids]
      | complain error => simp [files, entries, Output.perform, Output.report, Output.ids]
      | warn message symbol => simp [files, entries, Output.perform, Output.warn, Output.ids]

theorem files_append (taken : List FileId) (xs ys : List Deed) :
    files taken (xs ++ ys) =
      files taken xs ++ files (taken ++ (files taken xs).map (·.id)) ys := by
  induction xs generalizing taken with
  | nil => simp [files]
  | cons deed rest ih =>
      cases deed with
      | offer file =>
          rw [List.cons_append, files, files]
          by_cases htaken : file.id ∈ taken
          · rw [if_pos htaken, if_pos htaken, ih]
          · rw [if_neg htaken, if_neg htaken, ih]
            simp
      | complain error => exact ih taken
      | warn message symbol => exact ih taken

theorem entries_append (taken : List FileId) (xs ys : List Deed) :
    entries taken (xs ++ ys) =
      entries taken xs ++ entries (taken ++ (files taken xs).map (·.id)) ys := by
  induction xs generalizing taken with
  | nil => simp [files, entries]
  | cons deed rest ih =>
      cases deed with
      | offer file =>
          rw [List.cons_append, entries, entries, files]
          by_cases htaken : file.id ∈ taken
          · rw [if_pos htaken, if_pos htaken, if_pos htaken, ih, List.cons_append]
          · rw [if_neg htaken, if_neg htaken, if_neg htaken, ih]
            simp
      | complain error => rw [List.cons_append, entries, entries, ih]; rfl
      | warn message symbol => rw [List.cons_append, entries, entries, ih]; rfl

/-- Deeds offer a file with an identity. -/
def Offers (deeds : List Deed) (id : FileId) : Prop :=
  ∃ file, offer file ∈ deeds ∧ file.id = id

theorem offers_cons {file : SourceFile} {rest : List Deed} {id : FileId} :
    Offers (offer file :: rest) id ↔ file.id = id ∨ Offers rest id := by
  refine ⟨?_, ?_⟩
  · rintro ⟨g, hg, hid⟩
    rcases List.mem_cons.mp hg with hsame | hg
    · obtain rfl := offer.inj hsame
      exact Or.inl hid
    · exact Or.inr ⟨g, hg, hid⟩
  · rintro (hid | ⟨g, hg, hid⟩)
    · exact ⟨file, List.mem_cons_self, hid⟩
    · exact ⟨g, List.mem_cons_of_mem _ hg, hid⟩

/-- The identities that are taken after some deeds: those taken before, and those of all files on
offer. -/
theorem mem_taken_iff {id : FileId} :
    id ∈ taken ++ (files taken deeds).map (·.id) ↔ id ∈ taken ∨ Offers deeds id := by
  induction deeds generalizing taken with
  | nil => simp [files, Offers]
  | cons deed rest ih =>
      cases deed with
      | offer file =>
          rw [files, offers_cons]
          by_cases htaken : file.id ∈ taken
          · rw [if_pos htaken, ih]
            refine ⟨fun h => h.imp_right Or.inr, ?_⟩
            rintro (hold | rfl | hrest)
            · exact Or.inl hold
            · exact Or.inl htaken
            · exact Or.inr hrest
          · rw [if_neg htaken, List.map_cons, ← List.singleton_append, ← List.append_assoc, ih,
              List.mem_append, List.mem_singleton, or_assoc, eq_comm]
      | complain error => simpa [files, Offers] using @ih taken
      | warn message symbol => simpa [files, Offers] using @ih taken

/-- What there is to complain of in the files on offer: the identity of one of them is taken, or an
earlier one has it. -/
def Clashes (taken : List FileId) (deeds : List Deed) (id : FileId) : Prop :=
  ∃ xs file ys, deeds = xs ++ offer file :: ys ∧ file.id = id ∧
    (id ∈ taken ∨ Offers xs id)

/-- **Where an entry comes from.** -/
theorem mem_entries_iff :
    entry ∈ entries taken deeds ↔
      (∃ error, complain error ∈ deeds ∧ entry = .ofError error) ∨
      (∃ message symbol, warn message symbol ∈ deeds ∧ entry = .warning message symbol) ∨
      ∃ id, Clashes taken deeds id ∧ entry = .ofError (.fileAlreadyExists id) := by
  refine ⟨?_, ?_⟩
  · intro h
    induction deeds using List.reverseRecOn with
    | nil => exact absurd h List.not_mem_nil
    | append_singleton before deed ih =>
        rw [entries_append, List.mem_append] at h
        rcases h with h | h
        · rcases ih h with ⟨error, hmem, he⟩ | ⟨message, symbol, hmem, he⟩ | ⟨id, hclash, he⟩
          · exact Or.inl ⟨error, List.mem_append_left _ hmem, he⟩
          · exact Or.inr (Or.inl ⟨message, symbol, List.mem_append_left _ hmem, he⟩)
          · obtain ⟨xs, file, ys, rfl, hid, htaken⟩ := hclash
            exact Or.inr (Or.inr ⟨id, ⟨xs, file, ys ++ [deed], by simp, hid, htaken⟩, he⟩)
        · have hlast : deed ∈ before ++ [deed] :=
            List.mem_append_right _ (List.mem_singleton_self _)
          cases deed with
          | offer file =>
              rw [entries] at h
              by_cases htaken : file.id ∈ taken ++ (files taken before).map (·.id)
              · rw [if_pos htaken] at h
                have he := List.mem_singleton.mp h
                exact Or.inr (Or.inr
                  ⟨file.id, ⟨before, file, [], rfl, rfl, mem_taken_iff.mp htaken⟩, he⟩)
              · rw [if_neg htaken] at h
                exact absurd h List.not_mem_nil
          | complain error => exact Or.inl ⟨error, hlast, List.mem_singleton.mp h⟩
          | warn message symbol =>
              exact Or.inr (Or.inl ⟨message, symbol, hlast, List.mem_singleton.mp h⟩)
  · rintro (⟨error, hmem, rfl⟩ | ⟨message, symbol, hmem, rfl⟩ | ⟨id, hclash, rfl⟩)
    · obtain ⟨xs, ys, rfl⟩ := List.append_of_mem hmem
      rw [entries_append]
      exact List.mem_append_right _ List.mem_cons_self
    · obtain ⟨xs, ys, rfl⟩ := List.append_of_mem hmem
      rw [entries_append]
      exact List.mem_append_right _ List.mem_cons_self
    · obtain ⟨xs, file, ys, rfl, rfl, htaken⟩ := hclash
      rw [entries_append, entries, if_pos (mem_taken_iff.mpr htaken)]
      exact List.mem_append_right _ List.mem_cons_self

/-- Of two files with one identity the later one is refused. -/
theorem clashes_of_append {file other : SourceFile}
    (hfile : offer file ∈ xs) (hother : offer other ∈ ys) (hid : file.id = other.id) :
    Clashes taken (xs ++ ys) other.id := by
  obtain ⟨before, after, rfl⟩ := List.append_of_mem hother
  refine ⟨xs ++ before, other, after, (List.append_assoc _ _ _).symm, rfl, Or.inr ?_⟩
  exact ⟨file, List.mem_append_left _ hfile, hid⟩

/-- Of what is taken, only the identities of the files on offer matter. -/
theorem added_congr (h : ∀ id, Offers deeds id → (id ∈ taken ↔ id ∈ taken')) :
    files taken deeds = files taken' deeds ∧ entries taken deeds = entries taken' deeds := by
  induction deeds generalizing taken taken' with
  | nil => exact ⟨rfl, rfl⟩
  | cons deed rest ih =>
      have hrest : ∀ id, Offers rest id → (id ∈ taken ↔ id ∈ taken') := by
        rintro id ⟨file, hfile, hid⟩
        exact h id ⟨file, List.mem_cons_of_mem _ hfile, hid⟩
      obtain ⟨hfiles, hentries⟩ := ih hrest
      cases deed with
      | offer file =>
          have hsame := h file.id ⟨file, List.mem_cons_self, rfl⟩
          obtain ⟨hfiles', hentries'⟩ := ih fun id hid => show
              id ∈ taken ++ [file.id] ↔ id ∈ taken' ++ [file.id] by
            rw [List.mem_append, List.mem_append, hrest id hid]
          rw [files, files, entries, entries, hfiles, hfiles', hentries, hentries']
          exact ⟨if_congr hsame rfl rfl, if_congr hsame rfl rfl⟩
      | complain error =>
          rw [entries, entries, hentries]
          exact ⟨hfiles, rfl⟩
      | warn message symbol =>
          rw [entries, entries, hentries]
          exact ⟨hfiles, rfl⟩

/-! ## The deeds behind an attempt -/

/-- What an outcome leads to: a file is offered for each lookup, or there is one complaint. -/
def ofOutcome : Outcome → List Deed
  | .ok ds => ds.map fun d => offer (.generated d)
  | .error error => [complain error]

/-- What the result of a merge leads to. -/
def ofResult : Except MergeError SourceFile → Deed
  | .ok file => offer file
  | .error error => complain error

/-- What a legacy annotation on a declaration leads to. -/
def ofLegacy (options : Options) (table : SymbolTable) (legacy : LegacyAnnotation)
    (d : Declaration) : List Deed :=
  let complaints := legacy.complaints table d
  if options.ignoreUnsupportedLegacyParameters then
    complaints.map (fun error => warn (error.message ++ "; ignored") (some d.name)) ++
      ofOutcome (legacy.lookups table d)
  else if complaints.isEmpty then ofOutcome (legacy.lookups table d)
  else complaints.map complain

theorem absorb_eq (o : Output) (outcome : Outcome) :
    o.absorb outcome = (ofOutcome outcome).foldl Output.perform o := by
  cases outcome with
  | error e => rfl
  | ok ds =>
      rw [ofOutcome, List.foldl_map]
      rfl

theorem conclude_eq (o : Output) (finalized : Merge.Finalized) :
    Round.conclude o finalized = o.perform (ofResult finalized.result) := by
  unfold Round.conclude
  cases finalized.result with
  | error e => rfl
  | ok file => rfl

theorem recordLegacy_eq_foldl (options : Options) (table : SymbolTable)
    (legacy : LegacyAnnotation) (o : Output) (d : Declaration) :
    Round.recordLegacy options table legacy o d =
      (ofLegacy options table legacy d).foldl Output.perform o := by
  unfold Round.recordLegacy ofLegacy
  dsimp only
  cases options.ignoreUnsupportedLegacyParameters with
  | true =>
      rw [if_pos rfl, if_pos rfl, List.foldl_append, List.foldl_map, absorb_eq]
      rfl
  | false =>
      rw [if_neg Bool.false_ne_true, if_neg Bool.false_ne_true]
      cases (legacy.complaints table d).isEmpty with
      | true => exact absorb_eq o _
      | false =>
          rw [if_neg Bool.false_ne_true, if_neg Bool.false_ne_true, List.foldl_map]
          rfl

variable {options : Options} {table : SymbolTable} {d : Declaration} {error : MergeError}

theorem complain_mem_ofOutcome {outcome : Outcome} :
    complain error ∈ ofOutcome outcome ↔ outcome = .error error := by
  cases outcome with
  | ok es => simp [ofOutcome]
  | error cause => simp [ofOutcome, eq_comm]

theorem complain_mem_ofLegacy {legacy : LegacyAnnotation}
    (h : complain error ∈ ofLegacy options table legacy d) :
    error ∈ legacy.complaints table d ∨ legacy.lookups table d = .error error := by
  unfold ofLegacy at h
  dsimp only at h
  split at h
  · rcases List.mem_append.mp h with h | h
    · obtain ⟨_, _, h⟩ := List.mem_map.mp h
      cases h
    · exact Or.inr (complain_mem_ofOutcome.mp h)
  · split at h
    · exact Or.inr (complain_mem_ofOutcome.mp h)
    · obtain ⟨e, he, hsame⟩ := List.mem_map.mp h
      obtain rfl := complain.inj hsame
      exact Or.inl he

/-- A declaration that sets no unsupported parameter is treated like one with native annotations. -/
theorem ofLegacy_eq_ofOutcome {legacy : LegacyAnnotation}
    (h : legacy.unsupportedParameters table d = []) :
    ofLegacy options table legacy d = ofOutcome (legacy.lookups table d) := by
  have hnone : legacy.complaints table d = [] := by
    unfold LegacyAnnotation.complaints
    rw [h, List.map_nil]
  unfold ofLegacy
  rw [hnone]
  cases options.ignoreUnsupportedLegacyParameters <;> rfl

end Deed

/-- What is delivered is what the table finds under its name. -/
theorem SymbolTable.find?_of_delivered {table : SymbolTable} {annotationType : Name}
    {d : Declaration} (h : d ∈ table.delivered annotationType) : table.find? d.name = some d := by
  obtain ⟨_, _, ⟨e, _, hfind⟩, _⟩ := SymbolTable.mem_delivered_iff.mp h
  rw [(SymbolTable.find?_eq_some hfind).2]
  exact hfind

/-! ## What is taken -/

namespace Round

variable {taken : List Name} {ds : List Declaration} {d : Declaration} {name : Name}

theorem nodup_names_untaken (taken : List Name) (ds : List Declaration) :
    ((untaken taken ds).map (·.name)).Nodup ∧ ∀ d ∈ untaken taken ds, d.name ∉ taken := by
  induction ds generalizing taken with
  | nil => exact ⟨List.nodup_nil, fun _ h => absurd h List.not_mem_nil⟩
  | cons e rest ih =>
      rw [untaken]
      by_cases htaken : taken.contains e.name = true
      · rw [if_pos htaken]
        exact ih taken
      · rw [if_neg htaken]
        obtain ⟨hnodup, hfresh⟩ := ih (e.name :: taken)
        refine ⟨?_, ?_⟩
        · rw [List.map_cons, List.nodup_cons]
          refine ⟨?_, hnodup⟩
          intro hmem
          obtain ⟨d, hd, hname⟩ := List.mem_map.mp hmem
          exact hfresh d hd (by rw [hname]; exact List.mem_cons_self)
        · rw [List.forall_mem_cons]
          refine ⟨by simpa using htaken, ?_⟩
          intro d hd hold
          exact hfresh d hd (List.mem_cons_of_mem _ hold)

theorem untaken_sublist (taken : List Name) (ds : List Declaration) :
    (untaken taken ds).Sublist ds := by
  induction ds generalizing taken with
  | nil => exact .slnil
  | cons e rest ih =>
      rw [untaken]
      split
      · exact (ih taken).cons e
      · exact (ih _).cons_cons e

theorem mem_takenAfter_iff :
    name ∈ takenAfter taken ds ↔ name ∈ taken ∨ ∃ d ∈ ds, d.name = name := by
  refine ⟨?_, ?_⟩
  · intro h
    rcases List.mem_append.mp h with hnew | hold
    · obtain ⟨d, hd, hname⟩ := List.mem_map.mp (List.mem_reverse.mp hnew)
      exact Or.inr ⟨d, (untaken_sublist taken ds).subset hd, hname⟩
    · exact Or.inl hold
  · rintro (hold | ⟨d, hd, rfl⟩)
    · exact taken_subset_takenAfter hold
    · exact name_mem_takenAfter hd

/-- Where names tell declarations apart, exactly those are left out whose names were taken. -/
theorem mem_untaken_iff (h : ∀ x ∈ ds, ∀ y ∈ ds, x.name = y.name → x = y) :
    d ∈ untaken taken ds ↔ d ∈ ds ∧ d.name ∉ taken := by
  refine ⟨?_, ?_⟩
  · intro hd
    exact ⟨(untaken_sublist taken ds).subset hd, (nodup_names_untaken taken ds).2 d hd⟩
  · rintro ⟨hd, hfree⟩
    induction ds generalizing taken with
    | nil => exact absurd hd List.not_mem_nil
    | cons e rest ih =>
        have hrest : ∀ x ∈ rest, ∀ y ∈ rest, x.name = y.name → x = y := fun x hx y hy =>
          h x (List.mem_cons_of_mem _ hx) y (List.mem_cons_of_mem _ hy)
        rw [untaken]
        by_cases hname : d.name = e.name
        · -- the first declaration of the name is the one looked for
          obtain rfl := h d hd e List.mem_cons_self hname
          rw [if_neg (by simpa using hfree)]
          exact List.mem_cons_self
        · have hlater : d ∈ rest :=
            (List.mem_cons.mp hd).resolve_left fun hsame => hname (congrArg _ hsame)
          split
          · exact ih hrest hlater hfree
          · refine List.mem_cons_of_mem _ (ih hrest hlater ?_)
            rw [List.mem_cons]
            rintro (hsame | hold)
            · exact hname hsame
            · exact hfree hold

theorem mem_untaken_delivered_iff {table : SymbolTable} {annotationType : Name} :
    d ∈ untaken taken (table.delivered annotationType) ↔
      d ∈ table.delivered annotationType ∧ d.name ∉ taken := by
  refine mem_untaken_iff fun x hx y hy hname => ?_
  have hboth : some x = some y := by
    rw [← SymbolTable.find?_of_delivered hx, hname, SymbolTable.find?_of_delivered hy]
  exact Option.some.inj hboth

/-! ## The deeds of a processor -/

theorem foldl_act {act : Output → Declaration → Output} {deeds : Declaration → List Deed}
    (h : ∀ o d, act o d = (deeds d).foldl Output.perform o) (ds : List Declaration) (o : Output) :
    ds.foldl act o = (ds.flatMap deeds).foldl Output.perform o := by
  rw [List.foldl_flatMap]
  exact List.foldl_ext _ _ o fun o d _ => h o d

end Round

open Round Deed

namespace Processor

variable {processor other : Processor} {options : Options} {table : SymbolTable}
  {workspace : Workspace}

/-- What a recording processor does in a round. -/
def deeds (options : Options) (table : SymbolTable) (taken : Taken) : Processor → List Deed
  | contributingAnnotations =>
    (untaken taken.annotations (table.delivered contributingAnnotation)).flatMap fun d =>
      ofOutcome (markers d)
  | contributesTo =>
    (untaken taken.interfaces (table.delivered Vocabulary.contributesTo)).flatMap fun d =>
      ofOutcome (interfaceLookups table Vocabulary.contributesTo d)
  | contributesBinding =>
    (untaken taken.bindings (table.delivered Vocabulary.contributesBinding)).flatMap fun d =>
      ofOutcome (bindingLookups table Vocabulary.contributesBinding d)
  | contributesSubcomponent =>
    let subcomponents := table.delivered Vocabulary.contributesSubcomponent
    (untaken taken.subcomponents subcomponents).flatMap (fun d =>
        ofOutcome (subcomponentLookups table d)) ++
      (untaken (takenAfter taken.subcomponents subcomponents)
        (table.delivered subcomponentFactory)).flatMap fun d =>
          ofOutcome (strayFactoryCheck table d)
  | legacy =>
    (untaken taken.legacyInterfaces (table.delivered legacyContributesTo)).flatMap
        (ofLegacy options table .contributesTo) ++
      (untaken taken.legacyBindings (table.delivered legacyContributesBinding)).flatMap
        (ofLegacy options table .contributesBinding)
  | mergeComponent => []

theorem output_run (h : processor ≠ mergeComponent) :
    (processor.run options table workspace).1.output =
      (processor.deeds options table workspace.taken).foldl Output.perform workspace.output := by
  have hrecord : ∀ contribute o d,
      record contribute o d = (ofOutcome (contribute d)).foldl Output.perform o :=
    fun contribute o d => absorb_eq o (contribute d)
  have hlegacy : ∀ legacy o d, recordLegacy options table legacy o d =
      (ofLegacy options table legacy d).foldl Output.perform o :=
    fun legacy o d => recordLegacy_eq_foldl options table legacy o d
  unfold Processor.run deeds
  cases processor with
  | contributingAnnotations =>
      dsimp only
      rw [takeEach_eq, foldl_act (hrecord _)]
  | contributesTo =>
      dsimp only
      rw [takeEach_eq, foldl_act (hrecord _)]
  | contributesBinding =>
      dsimp only
      rw [takeEach_eq, foldl_act (hrecord _)]
  | contributesSubcomponent =>
      dsimp only
      rw [takeEach_eq, takeEach_eq, foldl_act (hrecord _), foldl_act (hrecord _),
        List.foldl_append]
  | legacy =>
      dsimp only
      rw [takeEach_eq, takeEach_eq, foldl_act (hlegacy _), foldl_act (hlegacy _),
        List.foldl_append]
  | mergeComponent => exact absurd rfl h

theorem deeds_run_of_ne (h : processor ≠ other) :
    other.deeds options table (processor.run options table workspace).1.taken =
      other.deeds options table workspace.taken := by
  cases processor <;> cases other <;> first | rfl | exact absurd rfl h

end Processor

/-! ## The deeds of a round -/

namespace Round

/-- What the recording processors do in a round. -/
def recordDeeds (options : Options) (table : SymbolTable) (taken : Taken) : List Deed :=
  (recording options).flatMap fun processor => processor.deeds options table taken

/-- What the merge sweep does in a round. -/
def mergeDeeds (options : Options) (table : SymbolTable) (processed : ProcessedRequests) :
    List Deed :=
  if waits options table then []
  else (requests options table processed).map fun d => ofResult (Merge.finalize table d)

variable {options : Options} {table : SymbolTable} {workspace : Workspace}

theorem output_recordAll (options : Options) (table : SymbolTable) (workspace : Workspace) :
    (recordAll options table workspace).output =
      (recordDeeds options table workspace.taken).foldl Output.perform workspace.output := by
  have hfold : ∀ ps : List Processor, .mergeComponent ∉ ps → ps.Nodup → ∀ w : Workspace,
      (ps.foldl (fun current processor => (processor.run options table current).1) w).output =
        (ps.flatMap fun processor => processor.deeds options table w.taken).foldl
          Output.perform w.output := by
    intro ps
    induction ps with
    | nil => exact fun _ _ _ => rfl
    | cons p rest ih =>
        intro hmerge hnodup w
        rw [List.nodup_cons] at hnodup
        have hp : p ≠ .mergeComponent := fun h => hmerge (h ▸ List.mem_cons_self)
        -- what the others do is not affected by what `p` took
        have hsame : (rest.flatMap fun q =>
            q.deeds options table (p.run options table w).1.taken) =
              rest.flatMap fun q => q.deeds options table w.taken :=
          List.flatMap_congr fun q hq => Processor.deeds_run_of_ne fun h => hnodup.1 (h ▸ hq)
        rw [List.foldl_cons, List.flatMap_cons, List.foldl_append,
          ih (fun h => hmerge (List.mem_cons_of_mem _ h)) hnodup.2, hsame, Processor.output_run hp]
  exact hfold _ (fun h => ne_merge_of_recording h rfl) (nodup_recording options) workspace

/-- **A round is its deeds**, those of the recording processors and then those of the sweep. -/
theorem output_run (options : Options) (table : SymbolTable) (workspace : Workspace) :
    (run options table workspace).1.output =
      (recordDeeds options table workspace.taken ++
        mergeDeeds options table workspace.processed).foldl Output.perform workspace.output := by
  rw [run_eq, List.foldl_append, ← output_recordAll]
  unfold mergeDeeds requests
  cases merges options with
  | false =>
      cases waits options table <;> rfl
  | true =>
      rw [if_pos rfl, if_pos rfl, ← processed_recordAll options table workspace]
      show (Merge.sweep (.assemble options table) table
        (recordAll options table workspace).processed).1.finalized.foldl conclude
          (recordAll options table workspace).output = _
      rw [sweep_eq]
      cases waits options table with
      | true => rfl
      | false =>
          rw [if_neg (by simp), if_neg (by simp), List.foldl_map, List.foldl_map]
          exact List.foldl_ext _ _ _ fun o d _ => conclude_eq o _

end Round

end ScopeMerge
