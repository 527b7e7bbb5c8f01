import ScopeMerge.Proofs.History
import ScopeMerge.Proofs.Reuse

/-!
# What a table keeps of a file it accepts

`addFile` compares the names of a file with the table before anything is stored, and
not with each other. So a file can only be refused for what the table holds already,
and a name that the file declares several times is no reason. All its declarations go
in, but a name finds one of them, the last.

* `find?_append` says what a name finds after a file went in;
* `Unambiguous` is when nothing of the file is hidden that way, which is when its
  declarations of one name are all the same;
* `accepted_file_kept_iff` puts it together for any table that a host can get to.
-/

namespace ScopeMerge

/-! ## Files that hide nothing -/

namespace SourceFile

variable {file : SourceFile}

/-- Under every name the file declares one thing, be it several times. -/
def Unambiguous (file : SourceFile) : Prop :=
  ∀ d ∈ file.declarations, ∀ e ∈ file.declarations, d.name = e.name → d = e

instance (file : SourceFile) : Decidable file.Unambiguous :=
  inferInstanceAs (Decidable (∀ d ∈ file.declarations, ∀ e ∈ file.declarations,
    d.name = e.name → d = e))

theorem unambiguous_iff_lastNamed? :
    file.Unambiguous ↔
      ∀ d ∈ file.declarations, lastNamed? d.name file.declarations = some d := by
  refine ⟨?_, ?_⟩
  · intro h d hd
    cases hlast : lastNamed? d.name file.declarations with
    | none => exact absurd rfl (lastNamed?_eq_none_iff.mp hlast d hd)
    | some last =>
        obtain ⟨hmem, hname⟩ := SymbolTable.lastNamed?_eq_some hlast
        rw [h last hmem d hd hname]
  · intro h d hd e he hname
    have hboth : some d = some e := by rw [← h d hd, hname, h e he]
    exact Option.some.inj hboth

theorem settled_eq_self_iff : file.settled = file ↔ file.Unambiguous := by
  rw [unambiguous_iff_lastNamed?]
  refine ⟨?_, ?_⟩
  · intro h d hd
    rw [← h] at hd
    exact mem_settled_iff.mp hd
  · intro h
    unfold settled
    rw [List.filterMap_congr h, List.filterMap_some]

end SourceFile

/-! ## Adding a file -/

namespace SymbolTable

variable {table : SymbolTable} {file : SourceFile} {isLocal : Bool}

/-- What was found before is found as before, and any other name finds the last declaration of
the file that has it. -/
theorem find?_append (table : SymbolTable) (file : SourceFile) (isLocal : Bool) (name : Name) :
    (table.append [file] isLocal).find? name =
      (table.find? name).or (lastNamed? name file.declarations) := by
  unfold find? append
  rw [List.findSome?_append]
  simp

theorem find?_append_of_apart (hapart : ∀ g ∈ table.files, g.Apart file) {d : Declaration}
    (hd : d ∈ file.declarations) :
    (table.append [file] isLocal).find? d.name = lastNamed? d.name file.declarations := by
  have hfree : table.find? d.name = none := by
    rw [find?_eq_none_iff]
    intro e he hname
    obtain ⟨g, hg, he⟩ := mem_declarations_iff.mp he
    exact (hapart g hg).2 e he d hd hname
  rw [find?_append, hfree, Option.none_or]

/-- A file that is handed on has the identity of one that was added. -/
theorem exists_localFile_of_localUnit (hw : table.WellFormed) {shown : SourceFile}
    (h : shown ∈ table.localUnit.files) : ∃ g ∈ table.files, g.id = shown.id := by
  rw [files_localUnit hw] at h
  obtain ⟨g, hg, rfl⟩ := List.mem_map.mp h
  exact ⟨g, localFiles_subset hg, rfl⟩

/-- **An accepted file is kept whole exactly if no two different declarations of it share a name.**
A file is refused for its identity, or else for the first of its names that the table has already;
names that it repeats itself are no reason. If it is refused the table stays as it is. If it is
accepted then each of its names finds the last declaration of that name in the file and all other
names find what they found before, and a local file is handed on with that last declaration in
every place. So every declaration finds itself, and the file is handed on as it was added, exactly
if it is unambiguous. -/
theorem accepted_file_kept_iff (ops : List Operation) (file : SourceFile) (isLocal : Bool) :
    (∀ error, (run ops).addFile file isLocal = .error error ↔
        Refuses (run ops).files file error) ∧
      (∀ error, Refuses (run ops).files file error →
        (Operation.addFile file).perform (run ops) = (run ops, some error)) ∧
      ∀ extended, (run ops).addFile file isLocal = .ok extended →
        (∀ d ∈ file.declarations,
          extended.find? d.name = lastNamed? d.name file.declarations) ∧
        (∀ name, (∀ d ∈ file.declarations, d.name ≠ name) →
          extended.find? name = (run ops).find? name) ∧
        ((∀ d ∈ file.declarations, extended.find? d.name = some d) ↔ file.Unambiguous) ∧
        (isLocal = true →
          extended.localUnit.files = (run ops).localUnit.files ++ [file.settled] ∧
            (file ∈ extended.localUnit.files ↔ file.Unambiguous)) := by
  have hw : (run ops).WellFormed := (history_run ops).pairwise_apart
  refine ⟨fun error => addFile_eq_error_iff, ?_, ?_⟩
  · intro error hrefuses
    rw [Operation.perform_addFile, addFiles, addFile_eq_error_iff.mpr hrefuses]
  · intro extended h
    obtain ⟨hapart, rfl⟩ := addFile_eq_ok_iff.mp h
    have hfound : ∀ d ∈ file.declarations,
        ((run ops).append [file] isLocal).find? d.name = lastNamed? d.name file.declarations :=
      fun d hd => find?_append_of_apart hapart hd
    refine ⟨hfound, ?_, ?_, ?_⟩
    · intro name hother
      rw [find?_append, lastNamed?_eq_none_iff.mpr hother, Option.or_none]
    · rw [SourceFile.unambiguous_iff_lastNamed?]
      refine forall₂_congr fun d hd => ?_
      rw [hfound d hd]
    · rintro rfl
      have hext : ((run ops).append [file] true).WellFormed := by
        refine wellFormed_append_iff.mpr ⟨hw, List.pairwise_singleton _ _, ?_⟩
        intro g hg f hf
        rw [List.mem_singleton.mp hf]
        exact hapart g hg
      have hunit : ((run ops).append [file] true).localUnit.files =
          (run ops).localUnit.files ++ [file.settled] := by
        rw [files_localUnit hext, localFiles_append_true, List.map_append, files_localUnit hw]
        rfl
      refine ⟨hunit, ?_⟩
      rw [hunit, List.mem_append, List.mem_singleton, ← SourceFile.settled_eq_self_iff]
      refine ⟨?_, fun hsame => Or.inr hsame.symm⟩
      intro hmem
      rcases hmem with hold | hnew
      · -- the identity was free, so the file is none of those handed on before
        obtain ⟨g, hg, hid⟩ := exists_localFile_of_localUnit hw hold
        exact absurd hid (hapart g hg).1
      · exact hnew.symm

end SymbolTable

namespace Sample

open SymbolTable

/-- An interface and a class of one name. -/
def clockTwice : SourceFile :=
  { id := ⟨"Clock.kt"⟩
    declarations :=
      [Declaration.topLevel .interface "com.app" "Clock",
        Declaration.topLevel .classType "com.app" "Clock"] }

-- what counts is not the name alone: the same interface twice would hide nothing
example : ¬ clockTwice.Unambiguous ∧
    { clockTwice with
      declarations := [Declaration.topLevel .interface "com.app" "Clock",
        Declaration.topLevel .interface "com.app" "Clock"] }.Unambiguous := by
  decide

/-- The file is accepted, the interface is not found any more, and the file that is handed on is
another one. -/
theorem clockTwice_accepted :
    ¬ ∀ (ops : List Operation) (file : SourceFile) (extended : SymbolTable),
      (run ops).addFile file true = .ok extended →
        (∀ d ∈ file.declarations, extended.find? d.name = some d) ∧
          file ∈ extended.localUnit.files := by
  intro hall
  have hok : (run []).addFile clockTwice true = .ok ((run []).append [clockTwice] true) := by
    decide
  obtain ⟨hfound, _⟩ := hall [] clockTwice _ hok
  have hhidden : ((run []).append [clockTwice] true).find? ⟨"com.app.Clock"⟩ ≠
      some (Declaration.topLevel .interface "com.app" "Clock") := by
    decide
  exact hhidden (hfound _ List.mem_cons_self)

end Sample

end ScopeMerge
