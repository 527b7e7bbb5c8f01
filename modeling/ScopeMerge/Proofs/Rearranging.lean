import ScopeMerge.Proofs.Waiting
import Mathlib.Data.Multiset.Bind

/-!
# The same files in another order

Two tables may hold the same files in another order, and each file its declarations in
another order. What is found by name does not change, because a name is declared once;
what is listed changes its order only. `Alike` says that two tables are so related.
Whatever a compilation asks of a table is then the same up to order:

* a merge finds the same (`Alike.agrees`), and a declaration contributes the same
  (`Alike.sameContext`);
* a round that is due the same declarations waits for the same (`Mirrors.waits_eq`).
-/

namespace ScopeMerge

open Vocabulary

/-! ## Files -/

/-- A file up to the order of its declarations. -/
def SourceFile.content (file : SourceFile) : FileId × Multiset Declaration :=
  (file.id, file.declarations)

/-- The same files, up to the order of the files and of the declarations in each. -/
def Rearranged (fs gs : List SourceFile) : Prop :=
  (fs.map SourceFile.content).Perm (gs.map SourceFile.content)

namespace Rearranged

variable {fs gs fs' gs' : List SourceFile}

theorem refl (fs : List SourceFile) : Rearranged fs fs :=
  List.Perm.refl _

theorem symm (h : Rearranged fs gs) : Rearranged gs fs :=
  List.Perm.symm h

theorem trans {hs : List SourceFile} (h : Rearranged fs gs) (h' : Rearranged gs hs) :
    Rearranged fs hs :=
  List.Perm.trans h h'

theorem of_perm (h : fs.Perm gs) : Rearranged fs gs :=
  h.map _

theorem append (h : Rearranged fs gs) (h' : Rearranged fs' gs') :
    Rearranged (fs ++ fs') (gs ++ gs') := by
  unfold Rearranged
  rw [List.map_append, List.map_append]
  exact List.Perm.append h h'

/-- Every file has its counterpart. -/
theorem exists_counterpart (h : Rearranged fs gs) {file : SourceFile} (hfile : file ∈ fs) :
    ∃ other ∈ gs, other.id = file.id ∧ other.declarations.Perm file.declarations := by
  obtain ⟨other, hother, hcontent⟩ :=
    List.mem_map.mp ((List.Perm.mem_iff h).mp (List.mem_map_of_mem hfile))
  have hparts := Prod.mk.inj hcontent
  exact ⟨other, hother, hparts.1, Multiset.coe_eq_coe.mp hparts.2⟩

theorem declarations_perm (h : Rearranged fs gs) :
    (fs.flatMap (·.declarations)).Perm (gs.flatMap (·.declarations)) := by
  have hbind : ∀ files : List SourceFile, (↑(files.flatMap (·.declarations)) : Multiset Declaration)
      = (Multiset.ofList (files.map SourceFile.content)).bind Prod.snd := by
    intro files
    rw [← Multiset.coe_bind, ← Multiset.map_coe, Multiset.bind_map]
    rfl
  rw [← Multiset.coe_eq_coe, hbind, hbind, Multiset.coe_eq_coe.mpr h]

theorem distinctNames (h : Rearranged fs gs) (hdistinct : ∀ file ∈ fs, file.DistinctNames) :
    ∀ file ∈ gs, file.DistinctNames := by
  intro file hfile
  obtain ⟨other, hother, _, hperm⟩ := h.symm.exists_counterpart hfile
  exact (hperm.map Declaration.name).nodup_iff.mp (hdistinct other hother)

/-- Whether files fit into one table does not depend on any order. -/
theorem pairwise_apart (h : Rearranged fs gs) (hfs : fs.Pairwise SourceFile.Apart) :
    gs.Pairwise SourceFile.Apart := by
  have hcontent : ∀ files : List SourceFile, files.Pairwise SourceFile.Apart ↔
      (files.map SourceFile.content).Pairwise fun c c' =>
        c.1 ≠ c'.1 ∧ ∀ d ∈ c.2, ∀ e ∈ c'.2, d.name ≠ e.name := by
    intro files
    rw [List.pairwise_map]
    rfl
  rw [hcontent] at hfs ⊢
  refine (List.Perm.pairwise_iff ?_ h).mp hfs
  exact fun hab => ⟨fun he => hab.1 he.symm, fun d hd e he hn => hab.2 e he d hd hn.symm⟩

end Rearranged

/-! ## Files as they are handed on -/

/-- A file as a unit lists it: of the declarations under one name each shows the last. -/
def SourceFile.settled (file : SourceFile) : SourceFile :=
  { file with
    declarations := file.declarations.filterMap fun d => lastNamed? d.name file.declarations }

theorem SourceFile.settled_of_distinct {file : SourceFile} (h : file.DistinctNames) :
    file.settled = file := by
  have hall : ∀ d ∈ file.declarations, lastNamed? d.name file.declarations = some d :=
    fun d hd => lastNamed?_of_distinct h hd
  unfold settled
  rw [List.filterMap_congr hall, List.filterMap_some]

theorem SymbolTable.files_localUnit {t : SymbolTable} (hw : t.WellFormed) :
    t.localUnit.files = t.localFiles.map SourceFile.settled := by
  unfold localUnit localFiles
  rw [List.map_map]
  refine List.map_congr_left fun entry hentry => ?_
  have hfile : entry.file ∈ t.files := List.mem_map_of_mem (List.mem_of_mem_filter hentry)
  rw [listed_eq, List.filterMap_congr fun d hd => find?_eq_lastNamed? hw hfile hd]
  rfl

theorem Rearranged.settled {fs gs : List SourceFile} (h : Rearranged fs gs)
    (hdistinct : ∀ file ∈ fs, file.DistinctNames) :
    Rearranged (fs.map SourceFile.settled) (gs.map SourceFile.settled) := by
  have hid : ∀ files : List SourceFile, (∀ file ∈ files, file.DistinctNames) →
      files.map SourceFile.settled = files := by
    intro files hall
    rw [List.map_congr_left fun file hfile => SourceFile.settled_of_distinct (hall file hfile)]
    exact List.map_id _
  rw [hid fs hdistinct, hid gs (h.distinctNames hdistinct)]
  exact h

/-! ## Tables -/

/-- Two well-formed tables with the same files, up to order. -/
structure Alike (t t' : SymbolTable) : Prop where
  files : Rearranged t.files t'.files
  localFiles : Rearranged t.localFiles t'.localFiles
  wellFormed : t.WellFormed
  distinct : ∀ file ∈ t.files, file.DistinctNames

/-- What a name finds is what declares it. -/
theorem SymbolTable.find?_eq_some_iff_mem {t : SymbolTable} (hw : t.WellFormed)
    (hdistinct : ∀ file ∈ t.files, file.DistinctNames) {name : Name} {d : Declaration} :
    t.find? name = some d ↔ d ∈ t.declarations ∧ d.name = name := by
  refine ⟨find?_eq_some, ?_⟩
  rintro ⟨hd, rfl⟩
  obtain ⟨file, hfile, hd⟩ := mem_declarations_iff.mp hd
  exact find?_of_mem hw hfile (hdistinct file hfile) hd

namespace Alike

variable {t t' : SymbolTable}

theorem symm (h : Alike t t') : Alike t' t where
  files := h.files.symm
  localFiles := h.localFiles.symm
  wellFormed := h.files.pairwise_apart h.wellFormed
  distinct := h.files.distinctNames h.distinct

theorem declarations_perm (h : Alike t t') : t.declarations.Perm t'.declarations := by
  rw [SymbolTable.declarations_eq, SymbolTable.declarations_eq]
  exact h.files.declarations_perm

theorem localDeclarations_perm (h : Alike t t') :
    t.localDeclarations.Perm t'.localDeclarations :=
  h.localFiles.declarations_perm

theorem find?_eq (h : Alike t t') (name : Name) : t.find? name = t'.find? name := by
  refine Option.ext fun d => ?_
  rw [SymbolTable.find?_eq_some_iff_mem h.wellFormed h.distinct,
    SymbolTable.find?_eq_some_iff_mem h.symm.wellFormed h.symm.distinct,
    h.declarations_perm.mem_iff]

theorem sameClass (h : Alike t t') (n : Name) : SameClass t t' n where
  marker := by
    unfold SymbolTable.isScopeMarker
    rw [h.find?_eq]
  parameters := by
    unfold SymbolTable.parametersOf
    rw [h.find?_eq]

theorem factories_perm (h : Alike t t') (d : Declaration) :
    (SubcomponentShape.factories t d).Perm (SubcomponentShape.factories t' d) := by
  unfold SubcomponentShape.factories SymbolTable.nestedIn
  have hfind : (fun e : Declaration => t.find? e.name) = fun e => t'.find? e.name :=
    funext fun e => h.find?_eq e.name
  rw [hfind]
  exact ((h.declarations_perm.filter _).filterMap _).filter _

theorem enclosing_eq (h : Alike t t') (d : Declaration) :
    SubcomponentShape.enclosing t d = SubcomponentShape.enclosing t' d := by
  unfold SubcomponentShape.enclosing
  rw [funext h.find?_eq]

/-- **A merge finds the same.** -/
theorem agrees (h : Alike t t') : Agrees t t' where
  classes := h.sameClass
  lookups := by
    refine Merge.lookups_eq_of_mem_iff h.wellFormed h.symm.wellFormed fun d => ?_
    rw [Merge.mem_lookups_iff h.wellFormed, Merge.mem_lookups_iff h.symm.wellFormed, h.find?_eq]
  origins := by
    intro d _
    unfold Merge.origin?
    rw [funext h.find?_eq]
  factories := h.factories_perm
  enclosing := h.enclosing_eq

/-- **A declaration contributes the same.** -/
theorem sameContext (h : Alike t t') (d : Declaration) : SameContext t t' d where
  shape := h.agrees.shape d
  factories := fun factory _ => h.agrees.reading factory
  enclosing := by rw [h.enclosing_eq]

/-- Adding the same files keeps tables alike, if the files fit. -/
theorem append (h : Alike t t') {fs gs : List SourceFile} (hfs : Rearranged fs gs)
    (hw : (t.append fs true).WellFormed) (hdistinct : ∀ file ∈ fs, file.DistinctNames) :
    Alike (t.append fs true) (t'.append gs true) where
  files := by
    rw [SymbolTable.files_append, SymbolTable.files_append]
    exact h.files.append hfs
  localFiles := by
    rw [SymbolTable.localFiles_append_true, SymbolTable.localFiles_append_true]
    exact h.localFiles.append hfs
  wellFormed := hw
  distinct := by
    rw [SymbolTable.files_append]
    exact fun file hfile => (List.mem_append.mp hfile).elim (h.distinct file) (hdistinct file)

end Alike

/-! ## Rounds -/

/-- Two tables in rounds that deliver the same. -/
structure Mirrors (t t' : SymbolTable) : Prop extends Alike t t' where
  introduced : ∀ id, id ∈ t.introduced ↔ id ∈ t'.introduced
  redelivered : ∀ n, n ∈ t.redelivered ↔ n ∈ t'.redelivered

namespace Mirrors

variable {t t' : SymbolTable}

theorem symm (h : Mirrors t t') : Mirrors t' t where
  toAlike := h.toAlike.symm
  introduced := fun id => (h.introduced id).symm
  redelivered := fun n => (h.redelivered n).symm

theorem mem_introducedDeclarations (h : Mirrors t t') {d : Declaration}
    (hd : d ∈ t.introducedDeclarations) : d ∈ t'.introducedDeclarations := by
  rw [SymbolTable.mem_introducedDeclarations_iff] at hd ⊢
  obtain ⟨file, hfile, hid, e, he, hfind⟩ := hd
  obtain ⟨other, hother, hsame, hperm⟩ := h.files.exists_counterpart hfile
  refine ⟨other, hother, ?_, e, hperm.mem_iff.mpr he, ?_⟩
  · rw [hsame, ← h.introduced]
    exact hid
  · rw [← h.find?_eq]
    exact hfind

theorem mem_delivered (h : Mirrors t t') {n : Name} {d : Declaration}
    (hd : d ∈ t.delivered n) : d ∈ t'.delivered n := by
  rw [SymbolTable.mem_delivered_iff] at hd ⊢
  obtain ⟨file, hfile, ⟨e, he, hfind⟩, hdue, hannotated⟩ := hd
  obtain ⟨other, hother, hsame, hperm⟩ := h.localFiles.exists_counterpart hfile
  refine ⟨other, hother, ⟨e, hperm.mem_iff.mpr he, ?_⟩, ?_, hannotated⟩
  · rw [← h.find?_eq]
    exact hfind
  · rw [hsame, ← h.introduced, ← h.redelivered]
    exact hdue

theorem mem_marked (h : Mirrors t t') {n : Name} (hn : n ∈ Registry.marked t) :
    n ∈ Registry.marked t' := by
  unfold Registry.marked SymbolTable.inNamespace at hn ⊢
  simp only [List.mem_filterMap, List.mem_filter, List.mem_mergeSort,
    SymbolTable.mem_visible_iff h.wellFormed] at hn
  simp only [List.mem_filterMap, List.mem_filter, List.mem_mergeSort,
    SymbolTable.mem_visible_iff h.symm.wellFormed, ← h.find?_eq]
  exact hn

theorem contains_assemble (h : Mirrors t t') (options : Options) {n : Name}
    (hn : (Registry.assemble options t).contains n = true) :
    (Registry.assemble options t').contains n = true := by
  rw [Registry.contains_assemble_iff, List.mem_append, List.mem_append] at hn ⊢
  rcases hn with (hn | hn) | hn
  · exact Or.inl (Or.inl hn)
  · exact Or.inl (Or.inr (h.mem_marked hn))
  · obtain ⟨d, hd, rfl⟩ := List.mem_map.mp hn
    obtain ⟨hd, hkind⟩ := List.mem_filter.mp hd
    exact Or.inr (List.mem_map_of_mem (List.mem_filter.mpr ⟨h.mem_delivered hd, hkind⟩))

theorem waits_of_waits (h : Mirrors t t') (options : Options)
    (hwaits : Round.waits options t = true) : Round.waits options t' = true := by
  unfold Round.waits Merge.hasNewContributions Registry.isContribution at hwaits ⊢
  simp only [List.any_eq_true] at hwaits ⊢
  obtain ⟨d, hd, usage, hu, hregistered⟩ := hwaits
  exact ⟨d, h.mem_introducedDeclarations hd, usage, hu, h.contains_assemble options hregistered⟩

/-- **A round waits for the same.** -/
theorem waits_eq (h : Mirrors t t') (options : Options) :
    Round.waits options t = Round.waits options t' :=
  Bool.eq_iff_iff.mpr ⟨h.waits_of_waits options, h.symm.waits_of_waits options⟩

end Mirrors

end ScopeMerge
