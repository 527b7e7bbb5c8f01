import ScopeMerge.Proofs.Lookup
import ScopeMerge.Session

/-!
# How a table grows

A table only ever grows at its end, by files that are apart from all it holds.
`append` is the growth without the check; `addFile`, `addFiles` and `addUnit`
succeed exactly when the grown table is well formed, and then they are `append`.
So one condition on the end of a compilation, that its last table is well
formed, stands for every check on the way there.

The second half says what is delivered of the local files. In the first round
that is everything the sources declare.
-/

namespace ScopeMerge

namespace SymbolTable

variable {table extended : SymbolTable} {file : SourceFile} {fs gs : List SourceFile}
  {isLocal : Bool}

/-- The table with further files, whether they fit or not. -/
def append (table : SymbolTable) (fs : List SourceFile) (isLocal : Bool) : SymbolTable :=
  { table with
    entries := table.entries ++ fs.map fun file => { file, isLocal }
    incoming := if isLocal then table.incoming ++ fs.map (·.id) else table.incoming }

/-- The local files of a table, in the order added. -/
def localFiles (table : SymbolTable) : List SourceFile :=
  (table.entries.filter (·.isLocal)).map (·.file)

@[simp] theorem files_append : (table.append fs isLocal).files = table.files ++ fs := by
  unfold append files
  rw [List.map_append, List.map_map]
  exact congrArg _ (List.map_id fs)

theorem mem_declarations_append {d : Declaration} :
    d ∈ (table.append fs isLocal).declarations ↔
      d ∈ table.declarations ∨ ∃ file ∈ fs, d ∈ file.declarations := by
  rw [declarations_eq, files_append, List.flatMap_append, List.mem_append, ← declarations_eq,
    List.mem_flatMap]

@[simp] theorem files_beginRound (table : SymbolTable) (deferred : List Name) :
    (table.beginRound deferred).files = table.files := rfl

@[simp] theorem localFiles_beginRound (table : SymbolTable) (deferred : List Name) :
    (table.beginRound deferred).localFiles = table.localFiles := rfl

@[simp] theorem localFiles_append_true :
    (table.append fs true).localFiles = table.localFiles ++ fs := by
  unfold append localFiles
  rw [List.filter_append, List.map_append]
  congr 1
  rw [List.filter_map, List.map_map]
  simp [Function.comp_def]

@[simp] theorem localFiles_append_false :
    (table.append fs false).localFiles = table.localFiles := by
  unfold append localFiles
  rw [List.filter_append, List.filter_map]
  simp [Function.comp_def]

theorem append_nil (table : SymbolTable) (isLocal : Bool) : table.append [] isLocal = table := by
  unfold append
  simp

theorem append_append (table : SymbolTable) (fs gs : List SourceFile) (isLocal : Bool) :
    (table.append fs isLocal).append gs isLocal = table.append (fs ++ gs) isLocal := by
  unfold append
  cases isLocal <;> simp

theorem wellFormed_append_iff :
    (table.append fs isLocal).WellFormed ↔
      table.WellFormed ∧ fs.Pairwise SourceFile.Apart ∧
        ∀ g ∈ table.files, ∀ f ∈ fs, g.Apart f := by
  unfold WellFormed
  rw [files_append, List.pairwise_append]

theorem WellFormed.of_append (h : (table.append fs isLocal).WellFormed) : table.WellFormed :=
  (wellFormed_append_iff.mp h).1

theorem WellFormed.of_perm {other : SymbolTable} (h : table.WellFormed)
    (hp : table.files.Perm other.files) : other.WellFormed :=
  hp.pairwise h fun hab => hab.symm

/-- A table that holds some of the files of a well-formed one is well formed. -/
theorem WellFormed.of_subperm {other : SymbolTable} (h : other.WellFormed)
    (hp : table.files.Subperm other.files) : table.WellFormed := by
  obtain ⟨l, hl, hsub⟩ := hp
  exact hl.pairwise (List.Pairwise.sublist hsub h) fun hab => hab.symm

theorem wellFormed_beginRound_iff {deferred : List Name} :
    (table.beginRound deferred).WellFormed ↔ table.WellFormed := Iff.rfl

/-! ## Adding is growing, if the result is well formed -/

theorem hasFile_eq_false_iff {id : FileId} :
    table.hasFile id = false ↔ ∀ g ∈ table.files, g.id ≠ id := by
  unfold hasFile files
  simp

/-- No name of a file is taken if no file of the table declares one of them. -/
theorem find?_duplicate_eq_none_iff :
    (file.declarations.find? fun d => (table.find? d.name).isSome) = none ↔
      ∀ g ∈ table.files, ∀ d ∈ g.declarations, ∀ e ∈ file.declarations, d.name ≠ e.name := by
  rw [List.find?_eq_none]
  refine ⟨?_, ?_⟩
  · intro h g hg d hd e he hn
    have hnone : table.find? e.name = none := by simpa using h e he
    exact find?_eq_none_iff.mp hnone d (mem_declarations_iff.mpr ⟨g, hg, hd⟩) hn
  · intro h e he
    have hnone : table.find? e.name = none := by
      rw [find?_eq_none_iff]
      intro d hd hn
      obtain ⟨g, hg, hd⟩ := mem_declarations_iff.mp hd
      exact h g hg d hd e he hn
    simp [hnone]

theorem addFile_eq_ok_iff : table.addFile file isLocal = .ok extended ↔
    (∀ g ∈ table.files, g.Apart file) ∧ extended = table.append [file] isLocal := by
  -- the two checks of `addFile` are the two halves of `Apart`
  unfold addFile
  cases htaken : table.hasFile file.id with
  | true =>
      rw [if_pos rfl]
      refine ⟨?_, ?_⟩
      · intro h
        exact nomatch h
      · intro h
        obtain ⟨h, _⟩ := h
        rw [hasFile_eq_false_iff.mpr fun g hg => (h g hg).1] at htaken
        exact absurd htaken (by simp)
  | false =>
      rw [if_neg (by simp)]
      have hids := hasFile_eq_false_iff.mp htaken
      split
      · next duplicate hdup =>
        refine ⟨?_, ?_⟩
        · intro h
          exact nomatch h
        · intro h
          obtain ⟨h, _⟩ := h
          rw [find?_duplicate_eq_none_iff.mpr fun g hg d hd e he => (h g hg).2 d hd e he] at hdup
          exact absurd hdup (by simp)
      · next hdup =>
        have hfree := find?_duplicate_eq_none_iff.mp hdup
        refine ⟨?_, ?_⟩
        · intro h
          exact ⟨fun g hg => ⟨hids g hg, hfree g hg⟩, (Except.ok.inj h).symm⟩
        · intro h
          obtain ⟨_, rfl⟩ := h
          rfl

theorem addFiles_eq_iff (hw : table.WellFormed) :
    table.addFiles isLocal fs = (extended, none) ↔
      extended = table.append fs isLocal ∧ extended.WellFormed := by
  induction fs generalizing table with
  | nil =>
      rw [addFiles, append_nil]
      refine ⟨?_, ?_⟩
      · intro h
        obtain rfl := (Prod.mk.inj h).1
        exact ⟨rfl, hw⟩
      · intro h
        obtain ⟨rfl, _⟩ := h
        rfl
  | cons file rest ih =>
      rw [addFiles, show file :: rest = [file] ++ rest from rfl, ← append_append]
      cases hadd : table.addFile file isLocal with
      | error e =>
          refine ⟨?_, ?_⟩
          · intro h
            exact nomatch h
          · intro h
            obtain ⟨rfl, hext⟩ := h
            -- the grown table contains `file`, so `file` was apart from the rest
            have hone := (wellFormed_append_iff.mp hext.of_append).2.2
            have hok : table.addFile file isLocal = .ok (table.append [file] isLocal) :=
              addFile_eq_ok_iff.mpr ⟨fun g hg => hone g hg file List.mem_cons_self, rfl⟩
            rw [hadd] at hok
            exact nomatch hok
      | ok grown =>
          obtain ⟨hapart, rfl⟩ := addFile_eq_ok_iff.mp hadd
          refine ih (wellFormed_append_iff.mpr ⟨hw, by simp, ?_⟩)
          intro g hg f hf
          rw [List.mem_singleton.mp hf]
          exact hapart g hg

theorem addUnit_eq_ok_iff (hw : table.WellFormed) {unit : CompilationUnit} :
    table.addUnit unit isLocal = .ok extended ↔
      extended = table.append unit.files isLocal ∧ extended.WellFormed := by
  rw [← addFiles_eq_iff hw]
  unfold addUnit
  cases h : table.addFiles isLocal unit.files with
  | mk grown error =>
      cases error with
      | none => simp
      | some e => simp

/-! ## What is delivered -/

/-- Whatever the sources of a table and its generated files declare. -/
def localDeclarations (table : SymbolTable) : List Declaration :=
  table.localFiles.flatMap (·.declarations)

theorem listed_eq (entry : Entry) :
    table.listed entry = entry.file.declarations.filterMap fun d => table.find? d.name := rfl

theorem localFiles_subset {file : SourceFile} (h : file ∈ table.localFiles) :
    file ∈ table.files := by
  obtain ⟨entry, hentry, rfl⟩ := List.mem_map.mp h
  exact List.mem_map.mpr ⟨entry, List.mem_of_mem_filter hentry, rfl⟩

theorem WellFormed.localFiles (h : table.WellFormed) :
    table.localFiles.Pairwise SourceFile.Apart :=
  List.Pairwise.sublist (List.filter_sublist.map _) h

theorem localDeclarations_subset {d : Declaration} (h : d ∈ table.localDeclarations) :
    d ∈ table.declarations := by
  obtain ⟨file, hfile, hd⟩ := List.mem_flatMap.mp h
  exact mem_declarations_iff.mpr ⟨file, localFiles_subset hfile, hd⟩

/-- A file without repeated names is listed as it is. -/
theorem filterMap_find?_of_distinct (hw : table.WellFormed) (hfile : file ∈ table.files)
    (hdistinct : file.DistinctNames) :
    (file.declarations.filterMap fun d => table.find? d.name) = file.declarations := by
  have hall : ∀ d ∈ file.declarations, table.find? d.name = some d := fun d hd =>
    find?_of_mem hw hfile hdistinct hd
  calc (file.declarations.filterMap fun d => table.find? d.name)
      = file.declarations.filterMap some := List.filterMap_congr hall
    _ = file.declarations := List.filterMap_some

theorem mem_delivered_iff {annotationType : Name} {d : Declaration} :
    d ∈ table.delivered annotationType ↔
      ∃ file ∈ table.localFiles, (∃ e ∈ file.declarations, table.find? e.name = some d) ∧
        (file.id ∈ table.introduced ∨ d.name ∈ table.redelivered) ∧
          d.isAnnotatedWith annotationType = true := by
  unfold delivered localFiles delivers
  simp only [List.mem_flatMap, List.mem_filter, List.mem_map, listed_eq, List.mem_filterMap,
    Bool.and_eq_true, Bool.or_eq_true, List.contains_iff_mem]
  refine ⟨?_, ?_⟩
  · intro h
    obtain ⟨entry, hentry, hd, hdue, hannotated⟩ := h
    exact ⟨entry.file, ⟨entry, hentry, rfl⟩, hd, hdue, hannotated⟩
  · intro h
    obtain ⟨_, ⟨entry, hentry, rfl⟩, hd, hdue, hannotated⟩ := h
    exact ⟨entry, hentry, hd, hdue, hannotated⟩

theorem mem_introducedDeclarations_iff {d : Declaration} :
    d ∈ table.introducedDeclarations ↔
      ∃ file ∈ table.files, file.id ∈ table.introduced ∧
        ∃ e ∈ file.declarations, table.find? e.name = some d := by
  unfold introducedDeclarations introducedFiles inFile files
  simp only [List.mem_flatMap, List.mem_mergeSort, List.mem_filter, decide_eq_true_eq, List.mem_map,
    listed_eq, List.mem_filterMap]
  refine ⟨?_, ?_⟩
  · intro h
    obtain ⟨_, hid, entry, ⟨hentry, rfl⟩, hd⟩ := h
    exact ⟨entry.file, ⟨entry, hentry, rfl⟩, hid, hd⟩
  · intro h
    obtain ⟨_, ⟨entry, hentry, rfl⟩, hid, hd⟩ := h
    exact ⟨entry.file.id, hid, entry, ⟨hentry, rfl⟩, hd⟩

/-- When no file repeats a name, the local files are handed on as they are. -/
theorem localUnit_of_distinct (hw : table.WellFormed)
    (hdistinct : ∀ file ∈ table.localFiles, file.DistinctNames) :
    table.localUnit = { files := table.localFiles } := by
  unfold localUnit localFiles
  refine congrArg CompilationUnit.mk (List.map_congr_left fun entry hentry => ?_)
  have hlocal : entry.file ∈ table.localFiles := List.mem_map.mpr ⟨entry, hentry, rfl⟩
  rw [listed_eq, filterMap_find?_of_distinct hw (localFiles_subset hlocal) (hdistinct _ hlocal)]

/-- What is delivered when no file repeats a name, file by file. -/
theorem delivered_of_distinct (hw : table.WellFormed)
    (hdistinct : ∀ file ∈ table.localFiles, file.DistinctNames) (annotationType : Name) :
    table.delivered annotationType = table.localFiles.flatMap fun file =>
      file.declarations.filter fun d =>
        table.delivers file.id d.name && d.isAnnotatedWith annotationType := by
  unfold delivered localFiles
  rw [List.flatMap_map]
  refine List.flatMap_congr fun entry hentry => ?_
  have hlocal : entry.file ∈ table.localFiles := List.mem_map.mpr ⟨entry, hentry, rfl⟩
  rw [listed_eq, filterMap_find?_of_distinct hw (localFiles_subset hlocal) (hdistinct _ hlocal)]

/-- What is delivered when every declaration with the annotation is due, and no file repeats a
name. -/
theorem delivered_eq_filter (hw : table.WellFormed) {annotationType : Name}
    (hdistinct : ∀ file ∈ table.localFiles, file.DistinctNames)
    (hdue : ∀ file ∈ table.localFiles, ∀ d ∈ file.declarations,
      d.isAnnotatedWith annotationType = true →
        file.id ∈ table.introduced ∨ d.name ∈ table.redelivered) :
    table.delivered annotationType =
      table.localDeclarations.filter (·.isAnnotatedWith annotationType) := by
  rw [delivered_of_distinct hw hdistinct, localDeclarations, List.filter_flatMap]
  -- in every file, everything with the annotation is due
  refine List.flatMap_congr fun file hfile => List.filter_congr fun d hd => ?_
  cases hannotated : d.isAnnotatedWith annotationType with
  | false => simp
  | true =>
      have h := hdue file hfile d hd hannotated
      unfold delivers
      simpa [List.contains_iff_mem] using h

end SymbolTable

end ScopeMerge
