import ScopeMerge.Proofs.Distinctness
import ScopeMerge.Proofs.Rearranging

/-!
# A finished compilation as a prior result

The unit that a successful compilation leaves behind is made to be given to another
one. Nothing in it can be refused there: its files sat side by side in one table,
which held the built-in files as well, so they are apart from each other and from
what any other compilation starts with.

The unit is not the files of that table as they are. A file that repeats a name is
handed on with the last declaration of the name in every place, `settled`. Reading a
settled file back settles it once more, and that changes nothing
(`settled_settled`), which is why even then the unit comes back as it was.
-/

namespace ScopeMerge

namespace SourceFile

variable {file : SourceFile} {d : Declaration} {name : Name}

theorem mem_settled_iff :
    d ∈ file.settled.declarations ↔ lastNamed? d.name file.declarations = some d := by
  unfold settled
  rw [List.mem_filterMap]
  refine ⟨?_, fun h => ⟨d, (SymbolTable.lastNamed?_eq_some h).1, h⟩⟩
  rintro ⟨e, _, hlast⟩
  rw [(SymbolTable.lastNamed?_eq_some hlast).2]
  exact hlast

theorem settled_subset (file : SourceFile) : file.settled.declarations ⊆ file.declarations :=
  fun _ h => (SymbolTable.lastNamed?_eq_some (mem_settled_iff.mp h)).1

/-- Settling a file does not change what its names stand for. -/
theorem lastNamed?_settled (file : SourceFile) (name : Name) :
    lastNamed? name file.settled.declarations = lastNamed? name file.declarations := by
  cases hlast : lastNamed? name file.settled.declarations with
  | some d =>
      obtain ⟨hmem, rfl⟩ := SymbolTable.lastNamed?_eq_some hlast
      exact (mem_settled_iff.mp hmem).symm
  | none =>
      cases hfound : lastNamed? name file.declarations with
      | none => rfl
      | some d =>
          obtain ⟨_, rfl⟩ := SymbolTable.lastNamed?_eq_some hfound
          exact absurd rfl (lastNamed?_eq_none_iff.mp hlast d (mem_settled_iff.mpr hfound))

theorem settled_settled (file : SourceFile) : file.settled.settled = file.settled := by
  have hall : ∀ d ∈ file.settled.declarations,
      lastNamed? d.name file.settled.declarations = some d := by
    intro d hd
    rw [lastNamed?_settled]
    exact mem_settled_iff.mp hd
  unfold settled at hall ⊢
  rw [List.filterMap_congr hall, List.filterMap_some]

theorem Apart.settled {other : SourceFile} (h : file.Apart other) : file.Apart other.settled :=
  ⟨h.1, fun d hd e he => h.2 d hd e (settled_subset other he)⟩

/-- A file is named after its first declaration. -/
def NamedAfterFirst (file : SourceFile) : Prop :=
  ∃ d rest, file.declarations = d :: rest ∧ file.id = .generated d.name

/-- A settled file may start with another declaration, but it has the name of the first one. -/
theorem NamedAfterFirst.settled (h : file.NamedAfterFirst) : file.settled.NamedAfterFirst := by
  obtain ⟨d, rest, hdeclarations, hid⟩ := h
  cases hfirst : lastNamed? d.name file.declarations with
  | none =>
      have hd : d ∈ file.declarations := by
        rw [hdeclarations]
        exact List.mem_cons_self
      exact absurd rfl (lastNamed?_eq_none_iff.mp hfirst d hd)
  | some first =>
      refine ⟨first, rest.filterMap fun e => lastNamed? e.name file.declarations, ?_, ?_⟩
      · calc file.settled.declarations
            = (d :: rest).filterMap fun e => lastNamed? e.name file.declarations := by
              rw [← hdeclarations]
              rfl
          _ = first :: rest.filterMap fun e => lastNamed? e.name file.declarations :=
              List.filterMap_cons_some hfirst
      · rw [(SymbolTable.lastNamed?_eq_some hfirst).2]
        exact hid

end SourceFile

namespace Session

variable {options : Options} {start : SymbolTable} {inputs : List Input} {final : State}

/-! ## What a successful compilation leaves behind -/

/-- Every generated file is named after its first declaration. -/
theorem namedAfterFirst_of_generated {file : SourceFile}
    (h : file ∈ emitted options start ++ merged options start) : file.NamedAfterFirst := by
  rcases List.mem_append.mp h with h | h
  · obtain ⟨e, rfl, _⟩ := emitted_cases h
    exact ⟨e, [], rfl, rfl⟩
  · obtain ⟨r, _, hfinalize⟩ := exists_request_of_merged h
    obtain ⟨request, finals, _, _, rfl⟩ := Merge.finalize_eq_ok_iff.mp hfinalize
    exact ⟨_, _, rfl, rfl⟩

/-- The unit lists the sources as they are, and after them what was generated. -/
theorem Succeeded.files_unit (h : Succeeded options (loadedTable inputs) final)
    (hdistinct : ∀ file ∈ inputFiles inputs, file.DistinctNames) :
    final.result.unit.files = inputs.flatMap Input.sourceFiles ++
      final.workspace.output.files.map SourceFile.settled := by
  have hsources : (inputs.flatMap Input.sourceFiles).map SourceFile.settled =
      inputs.flatMap Input.sourceFiles := by
    rw [List.map_congr_left fun file hfile =>
      SourceFile.settled_of_distinct (hdistinct file (sourceFiles_subset hfile))]
    exact List.map_id _
  show final.table.localUnit.files = _
  rw [SymbolTable.files_localUnit h.underway.wellFormed, h.underway.localFiles, List.map_append,
    localFiles_loadedTable, hsources]

/-- The files of the compilation are apart from each other, and from all it was given besides. -/
theorem Succeeded.apart (h : Succeeded options (loadedTable inputs) final) :
    final.table.localFiles.Pairwise SourceFile.Apart ∧
      ∀ g ∈ SymbolTable.initial.files ++ dependencyFiles inputs, ∀ f ∈ final.table.localFiles,
        g.Apart f := by
  have hw := h.underway.wellFormed
  have hperm : final.table.files.Perm
      ((SymbolTable.initial.files ++ dependencyFiles inputs) ++ final.table.localFiles) := by
    rw [h.underway.files, h.underway.localFiles, files_loadedTable, localFiles_loadedTable,
      List.append_assoc, List.append_assoc, ← List.append_assoc (dependencyFiles inputs)]
    exact ((inputFiles_perm inputs).symm.append_right _).append_left _
  have hall := hperm.pairwise hw fun hab => hab.symm
  obtain ⟨_, hlocal, hacross⟩ := List.pairwise_append.mp hall
  exact ⟨hlocal, hacross⟩

/-! ## Reading it back -/

/-- Files that are apart from each other and from the built-in ones can be loaded. -/
theorem addUnit_initial {unit : CompilationUnit} (hunit : unit.files.Pairwise SourceFile.Apart)
    (hbuiltin : ∀ g ∈ SymbolTable.initial.files, ∀ f ∈ unit.files, g.Apart f) (isLocal : Bool) :
    SymbolTable.initial.addUnit unit isLocal =
      .ok (SymbolTable.initial.append unit.files isLocal) :=
  (SymbolTable.addUnit_eq_ok_iff SymbolTable.initial_wellFormed).mpr
    ⟨rfl, SymbolTable.wellFormed_append_iff.mpr ⟨SymbolTable.initial_wellFormed, hunit, hbuiltin⟩⟩

/-- **A finished compilation is usable as a prior result.** Its unit consists of the sources, as
they were given, and of the generated files in the order they are reported; each of these has an
identity of its own and is named after its first declaration. Nothing in the unit clashes with a
built-in file or a prior result, and a new compilation takes the unit as a prior result as well as
for its sources; in that case it hands the unit on as it is. -/
theorem unit_is_reusable {n : Nat} (hdistinct : ∀ file ∈ inputFiles inputs, file.DistinctNames)
    (h : compile options n inputs = .ok final) :
    (∃ generated, final.result.unit.files = inputs.flatMap Input.sourceFiles ++ generated ∧
        generated.map (·.id) = final.result.generated ∧
        ∀ file ∈ generated, file.NamedAfterFirst) ∧
      final.result.generated.Nodup ∧
      (∀ g ∈ SymbolTable.initial.files ++ dependencyFiles inputs,
        ∀ file ∈ final.result.unit.files, g.Apart file) ∧
      ∀ fresh : Session, fresh.table = .initial →
        (∃ loaded, fresh.addDependency final.result.unit = .ok loaded) ∧
          ∃ loaded, fresh.addSources final.result.unit = .ok loaded ∧
            loaded.table.localUnit = final.result.unit := by
  have hs := succeeded_of_compile hdistinct h
  obtain ⟨hlocal, hacross⟩ := hs.apart
  have hunit : final.result.unit.files = final.table.localFiles.map SourceFile.settled :=
    SymbolTable.files_localUnit hs.underway.wellFormed
  have happart : ∀ g ∈ SymbolTable.initial.files ++ dependencyFiles inputs,
      ∀ file ∈ final.result.unit.files, g.Apart file := by
    rw [hunit]
    intro g hg file hfile
    obtain ⟨f, hf, rfl⟩ := List.mem_map.mp hfile
    exact (hacross g hg f hf).settled
  have hpairwise : final.result.unit.files.Pairwise SourceFile.Apart := by
    rw [hunit]
    exact hlocal.map _ fun f g hfg => hfg.settled.symm.settled.symm
  have hadd := addUnit_initial hpairwise fun g hg => happart g (List.mem_append_left _ hg)
  refine ⟨⟨_, hs.files_unit hdistinct, ?_, ?_⟩, ?_, happart, fun fresh hfresh => ⟨?_, ?_⟩⟩
  · rw [List.map_map]
    rfl
  · intro file hfile
    obtain ⟨f, hf, rfl⟩ := List.mem_map.mp hfile
    rw [hs.concluded.files] at hf
    exact (namedAfterFirst_of_generated hf).settled
  · rw [hs.underway.localFiles, List.pairwise_append] at hlocal
    exact List.pairwise_map.mpr (hlocal.2.1.imp fun hab => hab.1)
  · unfold addDependency
    rw [hfresh, hadd]
    exact ⟨_, rfl⟩
  · unfold addSources
    rw [hfresh, hadd]
    refine ⟨_, rfl, congrArg CompilationUnit.mk ?_⟩
    show (SymbolTable.initial.append final.result.unit.files true).localUnit.files =
      final.result.unit.files
    have hw : (SymbolTable.initial.append final.result.unit.files true).WellFormed :=
      ((SymbolTable.addUnit_eq_ok_iff SymbolTable.initial_wellFormed).mp (hadd true)).2
    have hbuiltin : SymbolTable.initial.localFiles = [] := by decide
    -- every file of the unit is settled already
    rw [SymbolTable.files_localUnit hw, SymbolTable.localFiles_append_true, hbuiltin,
      List.nil_append, hunit, List.map_map]
    exact List.map_congr_left fun file _ => SourceFile.settled_settled file

/-- The unit of two subcomponents that share their generated names comes back as it was. -/
theorem twins_are_reusable : ∃ final, compile {} 4 Sample.twins = .ok final ∧
    final.result.generated.Nodup ∧
    ∃ loaded, ({} : Session).addSources final.result.unit = .ok loaded ∧
      loaded.table.localUnit = final.result.unit := by
  obtain ⟨final, hfinal⟩ := Sample.twins_compile
  obtain ⟨_, hnodup, _, hfresh⟩ := unit_is_reusable Sample.begins_twins.1.1 hfinal
  exact ⟨final, hfinal, hnodup, (hfresh {} rfl).2⟩

end Session

end ScopeMerge
