import ScopeMerge.Proofs.Loading
import Mathlib.Data.List.Induction

/-!
# A table and what was added to it

A host has four ways to change a table: it adds a prior result, a file or a
unit of sources, and it starts a round. It may do so in any order, and it may go
on after a refusal. What the table then answers is said here without the table,
by the list of what was added so far.

* `Refuses` says when files that are already held turn another one away, and
  with which error; `addFile_eq_error_iff` is that this is when `addFile` fails.
* `Keeps` says which files of a list go in when they are added one by one: those
  before the first that is refused. `exists_keeps` is one such step of a table.
* `History` adds these up along a sequence of operations, and `Represents` is
  what a table has to do with the result.

Every query goes through declarations found by name, so the one fact that all of
`Represents` rests on is that no two declarations that were added share a name.
-/

namespace ScopeMerge

namespace SymbolTable

/-- What can be done to a table. -/
inductive Operation where
  | addDependency (unit : CompilationUnit)
  | addFile (file : SourceFile)
  | addSources (unit : CompilationUnit)
  | beginRound (deferred : List Name)

namespace Operation

/-- The files an operation offers to the table. -/
def files : Operation → List SourceFile
  | addDependency unit => unit.files
  | addFile file => [file]
  | addSources unit => unit.files
  | beginRound _ => []

/-- Whether the files belong to the current compilation. -/
def isLocal : Operation → Bool
  | addDependency _ => false
  | addFile _ => true
  | addSources _ => true
  | beginRound _ => true

/-- What an operation has delivered again, if it starts a round. -/
def deferred? : Operation → Option (List Name)
  | beginRound deferred => some deferred
  | _ => none

/-- The table after an operation, and the error it may have reported. -/
def perform (table : SymbolTable) : Operation → SymbolTable × Option MergeError
  | addDependency unit => table.addFiles false unit.files
  | addFile file =>
    match table.addFile file true with
    | .error error => (table, some error)
    | .ok extended => (extended, none)
  | addSources unit => table.addFiles true unit.files
  | beginRound deferred => (table.beginRound deferred, none)

end Operation

/-- A new table after a sequence of operations, whichever of them were refused. -/
def run (ops : List Operation) : SymbolTable :=
  ops.foldl (fun table op => (op.perform table).1) initial

theorem run_append (ops : List Operation) (op : Operation) :
    run (ops ++ [op]) = (op.perform (run ops)).1 := by
  unfold run
  rw [List.foldl_append]
  rfl

/-! ## What is refused -/

/-- Files that are held turn another file away, with an error. -/
inductive Refuses (held : List SourceFile) (file : SourceFile) : MergeError → Prop
  /-- One of them has the identity. -/
  | taken (h : ∃ g ∈ held, g.id = file.id) : Refuses held file (.fileAlreadyExists file.id)
  /-- The identity is free, and `d` is the first declaration whose name one of them declares. -/
  | declared {before after : List Declaration} {d : Declaration}
      (hid : ∀ g ∈ held, g.id ≠ file.id) (hsplit : file.declarations = before ++ d :: after)
      (hfirst : ∀ x ∈ before, ∀ g ∈ held, ∀ e ∈ g.declarations, e.name ≠ x.name)
      (hdeclared : ∃ g ∈ held, ∃ e ∈ g.declarations, e.name = d.name) :
      Refuses held file (.duplicateDeclaration d.name)

variable {table : SymbolTable} {file : SourceFile} {fs kept : List SourceFile} {isLocal : Bool}
  {error : MergeError}

theorem isSome_find?_iff {name : Name} :
    (table.find? name).isSome = true ↔
      ∃ g ∈ table.files, ∃ e ∈ g.declarations, e.name = name := by
  refine ⟨?_, ?_⟩
  · intro h
    obtain ⟨d, hd⟩ := Option.isSome_iff_exists.mp h
    obtain ⟨hmem, hname⟩ := find?_eq_some hd
    obtain ⟨g, hg, hd⟩ := mem_declarations_iff.mp hmem
    exact ⟨g, hg, d, hd, hname⟩
  · intro h
    obtain ⟨g, hg, e, he, rfl⟩ := h
    obtain ⟨found, hfound⟩ := exists_find?_of_mem (mem_declarations_iff.mpr ⟨g, hg, he⟩)
    rw [hfound]
    rfl

theorem hasFile_eq_true_iff {id : FileId} :
    table.hasFile id = true ↔ ∃ g ∈ table.files, g.id = id := by
  unfold hasFile files
  simp

/-- The first declaration of a file whose name is taken. -/
theorem find?_duplicate_eq_some_iff {d : Declaration} :
    (file.declarations.find? fun d => (table.find? d.name).isSome) = some d ↔
      (∃ g ∈ table.files, ∃ e ∈ g.declarations, e.name = d.name) ∧
        ∃ before after, file.declarations = before ++ d :: after ∧
          ∀ x ∈ before, ∀ g ∈ table.files, ∀ e ∈ g.declarations, e.name ≠ x.name := by
  rw [List.find?_eq_some_iff_append, isSome_find?_iff]
  refine and_congr_right fun _ => exists_congr fun before => exists_congr fun after =>
    and_congr_right fun _ => forall_congr' fun x => forall_congr' fun _ => ?_
  rw [Bool.not_eq_true', ← Bool.not_eq_true, isSome_find?_iff]
  push Not
  rfl

/-- **A file is refused for its identity, or else for the first of its names that is taken.** -/
theorem addFile_eq_error_iff :
    table.addFile file isLocal = .error error ↔ Refuses table.files file error := by
  unfold SymbolTable.addFile
  refine ⟨?_, ?_⟩
  · intro h
    split at h
    · next htaken =>
      obtain rfl := Except.error.inj h
      exact .taken (hasFile_eq_true_iff.mp htaken)
    · next hfree =>
      split at h
      · next d hdup =>
        obtain rfl := Except.error.inj h
        obtain ⟨hdeclared, before, after, hsplit, hfirst⟩ := find?_duplicate_eq_some_iff.mp hdup
        exact .declared (hasFile_eq_false_iff.mp (by simpa using hfree)) hsplit hfirst hdeclared
      · exact nomatch h
  · intro h
    cases h with
    | taken h => rw [if_pos (hasFile_eq_true_iff.mpr h)]
    | declared hid hsplit hfirst hdeclared =>
        have hdup := find?_duplicate_eq_some_iff.mpr ⟨hdeclared, _, _, hsplit, hfirst⟩
        rw [hasFile_eq_false_iff.mpr hid, if_neg (by simp), hdup]

/-! ## What goes in -/

/-- Of files that are added one by one to those held, `kept` go in; then the next one is refused
with an error, unless there is none left. -/
inductive Keeps : List SourceFile → List SourceFile → List SourceFile → Option MergeError → Prop
  | nil {held : List SourceFile} : Keeps held [] [] none
  | refused {held rest : List SourceFile} {file : SourceFile} {error : MergeError}
      (h : Refuses held file error) : Keeps held (file :: rest) [] (some error)
  | added {held rest kept : List SourceFile} {file : SourceFile} {error : Option MergeError}
      (h : ∀ g ∈ held, g.Apart file) (hrest : Keeps (held ++ [file]) rest kept error) :
      Keeps held (file :: rest) (file :: kept) error

/-- **Adding files keeps those before the first that is refused, and reports its error.** -/
theorem exists_keeps (table : SymbolTable) (fs : List SourceFile) (isLocal : Bool) :
    ∃ kept error, Keeps table.files fs kept error ∧
      table.addFiles isLocal fs = (table.append kept isLocal, error) := by
  induction fs generalizing table with
  | nil => exact ⟨[], none, .nil, by rw [addFiles, append_nil]⟩
  | cons file rest ih =>
      rw [addFiles]
      cases hadd : table.addFile file isLocal with
      | error e =>
          exact ⟨[], some e, .refused (addFile_eq_error_iff.mp hadd), by rw [append_nil]⟩
      | ok extended =>
          obtain ⟨hapart, rfl⟩ := addFile_eq_ok_iff.mp hadd
          obtain ⟨kept, error, hkeeps, hrest⟩ := ih (table.append [file] isLocal)
          rw [files_append] at hkeeps
          refine ⟨file :: kept, error, .added hapart hkeeps, ?_⟩
          calc (table.append [file] isLocal).addFiles isLocal rest
              = ((table.append [file] isLocal).append kept isLocal, error) := hrest
            _ = (table.append (file :: kept) isLocal, error) := by rw [append_append]; rfl

/-- What turns a list away is the file that follows those that went in. -/
theorem Keeps.exists_refuses {held : List SourceFile} {outcome : Option MergeError}
    (h : Keeps held fs kept outcome) (herror : outcome = some error) :
    ∃ file after, fs = kept ++ file :: after ∧ Refuses (held ++ kept) file error := by
  induction h with
  | nil => exact nomatch herror
  | @refused held rest file _ h =>
      obtain rfl := Option.some.inj herror
      exact ⟨file, rest, rfl, by rwa [List.append_nil]⟩
  | @added held rest kept file outcome _ _ ih =>
      obtain ⟨next, after, rfl, hrefuses⟩ := ih herror
      exact ⟨next, after, rfl, by rwa [List.append_assoc] at hrefuses⟩

/-- A unit is turned away by the first of its files that does not fit. -/
theorem exists_refuses_of_addUnit {unit : CompilationUnit}
    (h : table.addUnit unit isLocal = .error error) :
    ∃ before file after, unit.files = before ++ file :: after ∧
      Refuses (table.files ++ before) file error := by
  obtain ⟨kept, outcome, hkeeps, hadd⟩ := exists_keeps table unit.files isLocal
  unfold addUnit at h
  rw [hadd] at h
  cases outcome with
  | none => exact nomatch h
  | some e =>
      obtain rfl := Except.error.inj h
      obtain ⟨file, after, hsplit, hrefuses⟩ := hkeeps.exists_refuses rfl
      exact ⟨kept, file, after, hsplit, hrefuses⟩

theorem Keeps.prefix_files {held : List SourceFile} {error : Option MergeError}
    (h : Keeps held fs kept error) : kept <+: fs := by
  induction h with
  | nil => exact List.prefix_refl []
  | refused _ => exact List.nil_prefix
  | added _ _ ih => exact (List.prefix_cons_inj _).mpr ih

theorem Keeps.pairwise_apart {held : List SourceFile} {error : Option MergeError}
    (h : Keeps held fs kept error) (hheld : held.Pairwise SourceFile.Apart) :
    (held ++ kept).Pairwise SourceFile.Apart := by
  induction h with
  | nil => simpa using hheld
  | refused _ => simpa using hheld
  | @added held rest kept file error hfile _ ih =>
      rw [show held ++ file :: kept = held ++ [file] ++ kept by simp]
      refine ih ?_
      rw [List.pairwise_append]
      exact ⟨hheld, by simp, by simpa using hfile⟩

/-! ## What was added so far -/

/-- What the operations on a new table have added to the built-in files, file by file. -/
inductive History : List Operation → List Entry → Prop
  | start : History [] (Builtin.unit.files.map fun file => { file, isLocal := false })
  | step {ops : List Operation} {held : List Entry} {op : Operation} {kept : List SourceFile}
      {error : Option MergeError} (h : History ops held)
      (hkeeps : Keeps (held.map (·.file)) op.files kept error) :
      History (ops ++ [op]) (held ++ kept.map fun file => { file, isLocal := op.isLocal })

/-- One file that is added alone is added like a unit of one. -/
theorem Operation.perform_addFile (table : SymbolTable) (file : SourceFile) :
    (Operation.addFile file).perform table = table.addFiles true [file] := by
  rw [addFiles]
  show (match table.addFile file true with
    | .error error => (table, some error)
    | .ok extended => (extended, none)) = _
  cases table.addFile file true with
  | error e => rfl
  | ok extended => rfl

/-- An operation that starts no round adds its files one by one. -/
theorem Operation.perform_eq_addFiles (table : SymbolTable) {op : Operation}
    (h : op.deferred? = none) : op.perform table = table.addFiles op.isLocal op.files := by
  cases op with
  | addDependency unit => rfl
  | addFile file => exact perform_addFile table file
  | addSources unit => rfl
  | beginRound deferred => exact nomatch h

theorem Operation.eq_beginRound {op : Operation} {deferred : List Name}
    (h : op.deferred? = some deferred) : op = .beginRound deferred := by
  cases op with
  | beginRound other => exact congrArg _ (Option.some.inj h)
  | _ => exact nomatch h

/-- An operation adds what its files keep, and reports what turned the next one away. -/
theorem Operation.exists_keeps (table : SymbolTable) (op : Operation) :
    ∃ kept error, Keeps table.files op.files kept error ∧ (op.perform table).2 = error ∧
      (op.perform table).1.entries =
        table.entries ++ kept.map fun file => { file, isLocal := op.isLocal } := by
  cases hround : op.deferred? with
  | some deferred =>
      obtain rfl := eq_beginRound hround
      exact ⟨[], none, .nil, rfl, (List.append_nil _).symm⟩
  | none =>
      obtain ⟨kept, error, hkeeps, hadd⟩ := SymbolTable.exists_keeps table op.files op.isLocal
      rw [perform_eq_addFiles table hround, hadd]
      exact ⟨kept, error, hkeeps, rfl, rfl⟩

/-- The entries of a table are its history. -/
theorem history_run (ops : List Operation) : History ops (run ops).entries := by
  induction ops using List.reverseRecOn with
  | nil => exact .start
  | append_singleton ops op ih =>
      obtain ⟨kept, error, hkeeps, _, hentries⟩ := op.exists_keeps (run ops)
      rw [run_append, hentries]
      exact .step ih hkeeps

theorem History.pairwise_apart {ops : List Operation} {held : List Entry}
    (h : History ops held) : (held.map (·.file)).Pairwise SourceFile.Apart := by
  induction h with
  | start => exact initial_wellFormed
  | step _ hkeeps ih =>
      rw [List.map_append, List.map_map]
      simpa [Function.comp_def] using hkeeps.pairwise_apart ih

theorem History.distinctNames {ops : List Operation} {held : List Entry} (h : History ops held)
    (hdistinct : ∀ op ∈ ops, ∀ file ∈ op.files, file.DistinctNames) :
    ∀ entry ∈ held, entry.file.DistinctNames := by
  induction h with
  | start =>
      intro entry hentry
      exact initial_distinctNames entry.file (List.mem_map_of_mem hentry)
  | @step ops held op kept error _ hkeeps ih =>
      intro entry hentry
      rcases List.mem_append.mp hentry with hentry | hentry
      · exact ih (fun op hop => hdistinct op (List.mem_append_left _ hop)) entry hentry
      · obtain ⟨file, hfile, rfl⟩ := List.mem_map.mp hentry
        exact hdistinct op (by simp) file (hkeeps.prefix_files.subset hfile)

/-! ## What the table answers -/

/-- A table answers as the list of what was added to it does. -/
structure Represents (table : SymbolTable) (held : List Entry) : Prop where
  /-- An identity is taken by a file that was added with it. -/
  hasFile : ∀ id, table.hasFile id = true ↔ ∃ entry ∈ held, entry.file.id = id
  /-- All that was added is visible, in the order added. -/
  visible : table.visible = held.flatMap (·.file.declarations)
  /-- A name finds the declaration that was added with it, as it was. -/
  find? : ∀ name d, table.find? name = some d ↔
    d.name = name ∧ ∃ entry ∈ held, d ∈ entry.file.declarations
  /-- A file lists what it declares. -/
  inFile : ∀ entry ∈ held, table.inFile entry.file.id = entry.file.declarations
  /-- One file lists a declaration, and no other. -/
  listedOnce : ∀ d ∈ table.visible, ∃! id, d ∈ table.inFile id
  /-- The declarations nested in a name are those that name it as their parent. -/
  nestedIn : ∀ parent,
    table.nestedIn parent = table.visible.filter (·.parent = some parent)
  /-- The local files are handed on as they were added. -/
  localUnit : table.localUnit.files = (held.filter (·.isLocal)).map (·.file)

theorem lastOfEachName_of_distinct {ds : List Declaration} (h : (ds.map (·.name)).Nodup) :
    lastOfEachName ds = ds := by
  induction ds with
  | nil => rfl
  | cons d rest ih =>
      rw [List.map_cons, List.nodup_cons] at h
      have hfree : ¬ rest.any (·.name = d.name) = true := by
        intro hany
        obtain ⟨x, hx, hname⟩ := List.any_eq_true.mp hany
        exact h.1 (List.mem_map.mpr ⟨x, hx, by simpa using hname⟩)
      rw [lastOfEachName, if_neg hfree, ih h.2]

/-- When no file repeats a name, nothing in the table is hidden. -/
theorem visible_eq_declarations (hdistinct : ∀ file ∈ table.files, file.DistinctNames) :
    table.visible = table.declarations := by
  rw [visible_eq, declarations_eq]
  exact List.flatMap_congr fun file hfile => lastOfEachName_of_distinct (hdistinct file hfile)

/-- In a well-formed table an identity belongs to one entry. -/
theorem filter_id_eq (hw : table.WellFormed) {entry : Entry} (hentry : entry ∈ table.entries) :
    table.entries.filter (·.file.id = entry.file.id) = [entry] := by
  have hids : (table.entries.map (·.file.id)).Nodup := by
    refine List.Pairwise.map _ (fun _ _ h => h) ?_
    exact (List.pairwise_map.mp hw).imp fun h => h.1
  have hnodup : (table.entries.filter (·.file.id = entry.file.id)).Nodup := hids.of_map.filter _
  refine List.perm_singleton.mp ((List.perm_ext_iff_of_nodup hnodup (by simp)).mpr ?_)
  intro e
  rw [List.mem_filter, List.mem_singleton, decide_eq_true_eq]
  refine ⟨fun h => ?_, ?_⟩
  · exact List.inj_on_of_nodup_map hids h.1 hentry h.2
  · rintro rfl
    exact ⟨hentry, rfl⟩

theorem inFile_of_distinct (hw : table.WellFormed) {entry : Entry}
    (hentry : entry ∈ table.entries) (hdistinct : entry.file.DistinctNames) :
    table.inFile entry.file.id = entry.file.declarations := by
  rw [SymbolTable.inFile, filter_id_eq hw hentry, List.flatMap_cons, List.flatMap_nil,
    List.append_nil, listed_eq]
  exact filterMap_find?_of_distinct hw (List.mem_map_of_mem hentry) hdistinct

theorem mem_inFile_iff (hw : table.WellFormed)
    (hdistinct : ∀ file ∈ table.files, file.DistinctNames) {id : FileId} {d : Declaration} :
    d ∈ table.inFile id ↔ ∃ file ∈ table.files, file.id = id ∧ d ∈ file.declarations := by
  unfold SymbolTable.inFile
  simp only [List.mem_flatMap, List.mem_filter, decide_eq_true_eq, listed_eq]
  refine ⟨?_, ?_⟩
  · intro h
    obtain ⟨entry, ⟨hentry, hid⟩, hd⟩ := h
    have hfile : entry.file ∈ table.files := List.mem_map_of_mem hentry
    rw [filterMap_find?_of_distinct hw hfile (hdistinct _ hfile)] at hd
    exact ⟨entry.file, hfile, hid, hd⟩
  · intro h
    obtain ⟨file, hfile, hid, hd⟩ := h
    obtain ⟨entry, hentry, rfl⟩ := List.mem_map.mp hfile
    refine ⟨entry, ⟨hentry, hid⟩, ?_⟩
    rwa [filterMap_find?_of_distinct hw hfile (hdistinct _ hfile)]

theorem find?_of_mem_declarations (hw : table.WellFormed)
    (hdistinct : ∀ file ∈ table.files, file.DistinctNames) {d : Declaration}
    (hd : d ∈ table.declarations) : table.find? d.name = some d := by
  obtain ⟨file, hfile, hd⟩ := mem_declarations_iff.mp hd
  exact find?_of_mem hw hfile (hdistinct file hfile) hd

/-- **A well-formed table in which no file repeats a name answers as its files do.** -/
theorem represents_entries (hw : table.WellFormed)
    (hdistinct : ∀ file ∈ table.files, file.DistinctNames) :
    table.Represents table.entries where
  hasFile id := by
    rw [hasFile_eq_true_iff]
    simp [files]
  visible := visible_eq_declarations hdistinct
  find? name d := by
    refine ⟨?_, ?_⟩
    · intro h
      obtain ⟨hmem, hname⟩ := find?_eq_some h
      obtain ⟨file, hfile, hd⟩ := mem_declarations_iff.mp hmem
      obtain ⟨entry, hentry, rfl⟩ := List.mem_map.mp hfile
      exact ⟨hname, entry, hentry, hd⟩
    · rintro ⟨rfl, entry, hentry, hd⟩
      have hfile : entry.file ∈ table.files := List.mem_map_of_mem hentry
      exact find?_of_mem hw hfile (hdistinct _ hfile) hd
  inFile entry hentry :=
    inFile_of_distinct hw hentry (hdistinct _ (List.mem_map_of_mem hentry))
  listedOnce d hd := by
    rw [visible_eq_declarations hdistinct] at hd
    obtain ⟨file, hfile, hmem⟩ := mem_declarations_iff.mp hd
    refine ⟨file.id, (mem_inFile_iff hw hdistinct).mpr ⟨file, hfile, rfl, hmem⟩, ?_⟩
    intro id hid
    obtain ⟨g, hg, rfl, hgmem⟩ := (mem_inFile_iff hw hdistinct).mp hid
    -- two files with a declaration in common are not apart
    by_contra hne
    exact (apart_of_ne hw hg hfile fun h => hne (congrArg _ h)).2 d hgmem d hmem rfl
  nestedIn parent := by
    rw [visible_eq_declarations hdistinct, SymbolTable.nestedIn]
    calc ((table.declarations.filter (·.parent = some parent)).filterMap
            fun d => table.find? d.name)
        = (table.declarations.filter (·.parent = some parent)).filterMap some :=
          List.filterMap_congr fun d hd =>
            find?_of_mem_declarations hw hdistinct (List.mem_of_mem_filter hd)
      _ = table.declarations.filter (·.parent = some parent) := List.filterMap_some
  localUnit := by
    rw [localUnit_of_distinct hw fun file hfile => hdistinct file (localFiles_subset hfile)]
    rfl

/-- **After any operations the table is what was added to it.** It answers every query as its
history does, refuses a file when the history does, and for the reason the history has, and is
left alone by what it refuses. A unit that is turned away leaves the files before the first one
that was refused. -/
theorem table_follows_history (ops : List Operation)
    (hdistinct : ∀ op ∈ ops, ∀ file ∈ op.files, file.DistinctNames) :
    ∃ held, History ops held ∧ (run ops).Represents held ∧
      (∀ file isLocal error,
        (run ops).addFile file isLocal = .error error ↔ Refuses (held.map (·.file)) file error) ∧
      (∀ file error, Refuses (held.map (·.file)) file error →
        (Operation.addFile file).perform (run ops) = (run ops, some error)) ∧
      ∀ fs isLocal, ∃ kept error, Keeps (held.map (·.file)) fs kept error ∧
        (run ops).addFiles isLocal fs = ((run ops).append kept isLocal, error) := by
  have hhistory := history_run ops
  have hw : (run ops).WellFormed := hhistory.pairwise_apart
  have hnames : ∀ file ∈ (run ops).files, file.DistinctNames := by
    intro file hfile
    obtain ⟨entry, hentry, rfl⟩ := List.mem_map.mp hfile
    exact hhistory.distinctNames hdistinct entry hentry
  refine ⟨(run ops).entries, hhistory, represents_entries hw hnames,
    fun file isLocal error => addFile_eq_error_iff, ?_, fun fs isLocal => exists_keeps _ fs isLocal⟩
  intro file error hrefuses
  rw [Operation.perform_addFile, addFiles, addFile_eq_error_iff.mpr hrefuses]

end SymbolTable

namespace Sample

open SymbolTable

/-- A host that offers a file of a prior result again, in the middle of a unit, and then a copy
of what did go in. -/
def operations : List Operation :=
  [ .addDependency library,
    .addSources { files := application.files ++ library.files ++ application.files },
    .beginRound [component.name],
    .addFile { id := ⟨"Copy.kt"⟩, declarations := [component, greeter] } ]

theorem table_follows_operations :
    (∀ op ∈ operations, ∀ file ∈ op.files, file.DistinctNames) ∧
      ∃ held, History operations held ∧ (run operations).Represents held ∧
        (∀ file isLocal error, (run operations).addFile file isLocal = .error error ↔
          Refuses (held.map (·.file)) file error) ∧
        (∀ file error, Refuses (held.map (·.file)) file error →
          (Operation.addFile file).perform (run operations) = (run operations, some error)) ∧
        ∀ fs isLocal, ∃ kept error, Keeps (held.map (·.file)) fs kept error ∧
          (run operations).addFiles isLocal fs = ((run operations).append kept isLocal, error) :=
  have hdistinct : ∀ op ∈ operations, ∀ file ∈ op.files, file.DistinctNames := by decide
  ⟨hdistinct, table_follows_history operations hdistinct⟩

-- the second half of the unit is turned away, and so is the copy
example : (run operations).localUnit = application := by decide

end Sample

end ScopeMerge
