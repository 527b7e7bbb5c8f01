import ScopeMerge.Merge.Selection
import Mathlib.Data.List.Pairwise
import Mathlib.Data.List.Sort

/-!
# What a table finds by name

A table is a list of files, and a query walks it from the front. Nothing that a
compilation does depends on that order, because no two files declare the same
name: `addFile` refuses the second one. This file turns the walks into
statements about membership, which is the form everything later needs.

* `Apart` says that two files fit into one table, `WellFormed` that all of a
  table's files do;
* `find?_eq_some_iff` says that a name is found wherever it is declared;
* `mem_lookups_iff` does the same for the list of lookups, and
  `lookups_eq_of_mem_iff` says that the list is determined by its members.
-/

namespace ScopeMerge

/-- Two files that one table can hold side by side. -/
def SourceFile.Apart (f g : SourceFile) : Prop :=
  f.id ≠ g.id ∧ ∀ d ∈ f.declarations, ∀ e ∈ g.declarations, d.name ≠ e.name

instance (f g : SourceFile) : Decidable (f.Apart g) :=
  inferInstanceAs (Decidable (_ ∧ _))

theorem SourceFile.Apart.symm {f g : SourceFile} (h : f.Apart g) : g.Apart f :=
  ⟨fun he => h.1 he.symm, fun d hd e he hn => h.2 e he d hd hn.symm⟩

/-- A file that declares no name twice. -/
def SourceFile.DistinctNames (file : SourceFile) : Prop :=
  (file.declarations.map (·.name)).Nodup

instance (file : SourceFile) : Decidable file.DistinctNames :=
  inferInstanceAs (Decidable (List.Nodup _))

theorem CompilationUnit.mem_names_iff {unit : CompilationUnit} {name : Name} :
    name ∈ unit.names ↔ ∃ file ∈ unit.files, ∃ d ∈ file.declarations, d.name = name := by
  simp [names]

/-- Files that are apart share no name, whatever part of them is looked at. -/
theorem SourceFile.nodup_names_flatMap {fs : List SourceFile} (h : fs.Pairwise SourceFile.Apart)
    {part : SourceFile → List Declaration} (hpart : ∀ f ∈ fs, part f ⊆ f.declarations)
    (hnodup : ∀ f ∈ fs, ((part f).map (·.name)).Nodup) :
    ((fs.flatMap part).map (·.name)).Nodup := by
  induction fs with
  | nil => simp
  | cons f rest ih =>
      rw [List.pairwise_cons] at h
      rw [List.flatMap_cons, List.map_append, List.nodup_append]
      refine ⟨hnodup f List.mem_cons_self, ih h.2
        (fun g hg => hpart g (List.mem_cons_of_mem _ hg))
        (fun g hg => hnodup g (List.mem_cons_of_mem _ hg)), ?_⟩
      intro n hn m hm
      obtain ⟨d, hd, rfl⟩ := List.mem_map.mp hn
      obtain ⟨e, he, rfl⟩ := List.mem_map.mp hm
      obtain ⟨g, hg, he⟩ := List.mem_flatMap.mp he
      exact (h.1 g hg).2 d (hpart f List.mem_cons_self hd) e
        (hpart g (List.mem_cons_of_mem _ hg) he)

/-! ## The last declaration of a name -/

theorem lastNamed?_eq_none_iff {name : Name} {ds : List Declaration} :
    lastNamed? name ds = none ↔ ∀ d ∈ ds, d.name ≠ name := by
  induction ds with
  | nil => simp [lastNamed?]
  | cons e rest ih =>
      rw [lastNamed?, Option.or_eq_none_iff, ih]
      by_cases hn : e.name = name <;> simp [hn]

theorem lastNamed?_of_distinct {ds : List Declaration} (h : (ds.map (·.name)).Nodup)
    {d : Declaration} (hd : d ∈ ds) : lastNamed? d.name ds = some d := by
  induction ds with
  | nil => simp at hd
  | cons e rest ih =>
      rw [List.map_cons, List.nodup_cons] at h
      rw [lastNamed?]
      rcases List.mem_cons.mp hd with rfl | hmem
      · have hnone : lastNamed? d.name rest = none := by
          rw [lastNamed?_eq_none_iff]
          intro x hx hn
          exact h.1 (List.mem_map.mpr ⟨x, hx, hn⟩)
        rw [hnone]
        simp
      · rw [ih h.2 hmem]
        rfl

theorem mem_lastOfEachName_iff {ds : List Declaration} {d : Declaration} :
    d ∈ lastOfEachName ds ↔ lastNamed? d.name ds = some d := by
  induction ds with
  | nil => simp [lastOfEachName, lastNamed?]
  | cons e rest ih =>
      rw [lastOfEachName, lastNamed?]
      cases hlast : lastNamed? d.name rest with
      | some found =>
          -- a later declaration has the name, so `e` is not the one that is found
          obtain ⟨hmem, hname⟩ := SymbolTable.lastNamed?_eq_some hlast
          rw [hlast] at ih
          by_cases hany : rest.any (·.name = e.name) = true
          · rw [if_pos hany, ih, Option.some_or]
          · rw [if_neg hany, List.mem_cons, ih, Option.some_or]
            refine ⟨fun h => h.resolve_left fun he => hany ?_, Or.inr⟩
            exact List.any_eq_true.mpr ⟨found, hmem, by simpa [← he] using hname⟩
      | none =>
          have hnot : d ∉ rest := fun hd => lastNamed?_eq_none_iff.mp hlast d hd rfl
          have hnot' : d ∉ lastOfEachName rest := by rw [ih, hlast]; simp
          by_cases hany : rest.any (·.name = e.name) = true
          · rw [if_pos hany]
            obtain ⟨x, hx, hxe⟩ := List.any_eq_true.mp hany
            have hne : e.name ≠ d.name := fun he =>
              lastNamed?_eq_none_iff.mp hlast x hx (by rw [← he]; simpa using hxe)
            simp [hnot', hne]
          · rw [if_neg hany, List.mem_cons]
            by_cases hde : d = e
            · simp [hde]
            · have hed : ¬ e = d := fun he => hde he.symm
              simp [hde, hed, hnot']

theorem nodup_names_lastOfEachName (ds : List Declaration) :
    ((lastOfEachName ds).map (·.name)).Nodup := by
  induction ds with
  | nil => simp [lastOfEachName]
  | cons e rest ih =>
      rw [lastOfEachName]
      by_cases hany : rest.any (·.name = e.name) = true
      · rw [if_pos hany]; exact ih
      · rw [if_neg hany, List.map_cons, List.nodup_cons]
        refine ⟨fun hmem => hany ?_, ih⟩
        obtain ⟨x, hx, hxe⟩ := List.mem_map.mp hmem
        have hx' := (SymbolTable.lastNamed?_eq_some (mem_lastOfEachName_iff.mp hx)).1
        exact List.any_eq_true.mpr ⟨x, hx', by simpa using hxe⟩

namespace SymbolTable

variable {table : SymbolTable}

/-- The files of a table, in the order added. -/
def files (table : SymbolTable) : List SourceFile :=
  table.entries.map (·.file)

/-- Any two files of the table are apart. -/
def WellFormed (table : SymbolTable) : Prop :=
  table.files.Pairwise SourceFile.Apart

instance (table : SymbolTable) : Decidable table.WellFormed :=
  inferInstanceAs (Decidable (List.Pairwise _ _))

/-! ## Queries in terms of files -/

theorem declarations_eq (table : SymbolTable) :
    table.declarations = table.files.flatMap (·.declarations) := by
  rw [declarations, files, List.flatMap_map]

theorem visible_eq (table : SymbolTable) :
    table.visible = table.files.flatMap fun file => lastOfEachName file.declarations := by
  rw [visible, files, List.flatMap_map]

theorem find?_eq (table : SymbolTable) (name : Name) :
    table.find? name = table.files.findSome? fun file => lastNamed? name file.declarations := by
  rw [find?, files, List.findSome?_map]
  rfl

theorem mem_declarations_iff {d : Declaration} :
    d ∈ table.declarations ↔ ∃ file ∈ table.files, d ∈ file.declarations := by
  rw [declarations_eq, List.mem_flatMap]

theorem find?_eq_none_iff {name : Name} :
    table.find? name = none ↔ ∀ d ∈ table.declarations, d.name ≠ name := by
  rw [find?_eq, List.findSome?_eq_none_iff]
  refine ⟨?_, ?_⟩
  · intro h d hd
    obtain ⟨file, hfile, hmem⟩ := mem_declarations_iff.mp hd
    exact lastNamed?_eq_none_iff.mp (h file hfile) d hmem
  · intro h file hfile
    rw [lastNamed?_eq_none_iff]
    exact fun d hd => h d (mem_declarations_iff.mpr ⟨file, hfile, hd⟩)

theorem exists_find?_of_mem {d : Declaration} (h : d ∈ table.declarations) :
    ∃ found, table.find? d.name = some found := by
  cases hf : table.find? d.name with
  | some found => exact ⟨found, rfl⟩
  | none => exact absurd rfl (find?_eq_none_iff.mp hf d h)

/-- **A name is found in whichever file declares it.** -/
theorem find?_eq_some_iff (hw : table.WellFormed) {name : Name} {d : Declaration} :
    table.find? name = some d ↔
      ∃ file ∈ table.files, lastNamed? name file.declarations = some d := by
  rw [find?_eq]
  unfold WellFormed at hw
  generalize table.files = fs at hw
  induction fs with
  | nil => simp
  | cons file rest ih =>
      rw [List.pairwise_cons] at hw
      rw [List.findSome?_cons]
      cases hlast : lastNamed? name file.declarations with
      | none => simp [hlast, ih hw.2]
      | some found =>
          -- no later file declares the name
          have hlater : ∀ g ∈ rest, lastNamed? name g.declarations ≠ some d := by
            intro g hg hd
            obtain ⟨hfound, hfoundName⟩ := lastNamed?_eq_some hlast
            obtain ⟨hmem, hname⟩ := lastNamed?_eq_some hd
            exact (hw.1 g hg).2 found hfound d hmem (hfoundName.trans hname.symm)
          refine ⟨?_, ?_⟩
          · intro h
            exact ⟨file, List.mem_cons_self, by rw [hlast]; exact h⟩
          · intro h
            obtain ⟨g, hg, hd⟩ := h
            rcases List.mem_cons.mp hg with rfl | hg
            · rw [hlast] at hd; exact hd
            · exact absurd hd (hlater g hg)

theorem apart_of_ne (hw : table.WellFormed) {f g : SourceFile} (hf : f ∈ table.files)
    (hg : g ∈ table.files) (h : f ≠ g) : f.Apart g := by
  have hsymm : Std.Symm SourceFile.Apart := ⟨fun _ _ => SourceFile.Apart.symm⟩
  exact List.Pairwise.forall hw hf hg h

/-- A file is determined by its identity. -/
theorem eq_of_id_eq (hw : table.WellFormed) {f g : SourceFile} (hf : f ∈ table.files)
    (hg : g ∈ table.files) (h : f.id = g.id) : f = g := by
  by_contra hne
  exact (apart_of_ne hw hf hg hne).1 h

theorem find?_of_mem (hw : table.WellFormed) {file : SourceFile} (hfile : file ∈ table.files)
    (hdistinct : file.DistinctNames) {d : Declaration} (hd : d ∈ file.declarations) :
    table.find? d.name = some d :=
  (find?_eq_some_iff hw).mpr ⟨file, hfile, lastNamed?_of_distinct hdistinct hd⟩

/-- A name that a file declares is found in that file. -/
theorem find?_eq_lastNamed? (hw : table.WellFormed) {file : SourceFile}
    (hfile : file ∈ table.files) {d : Declaration} (hd : d ∈ file.declarations) :
    table.find? d.name = lastNamed? d.name file.declarations := by
  cases hlast : lastNamed? d.name file.declarations with
  | none => exact absurd rfl (lastNamed?_eq_none_iff.mp hlast d hd)
  | some found => exact (find?_eq_some_iff hw).mpr ⟨file, hfile, hlast⟩

theorem mem_visible_iff (hw : table.WellFormed) {d : Declaration} :
    d ∈ table.visible ↔ table.find? d.name = some d := by
  rw [visible_eq, List.mem_flatMap, find?_eq_some_iff hw]
  simp only [mem_lastOfEachName_iff]

theorem nodup_names_visible (hw : table.WellFormed) : (table.visible.map (·.name)).Nodup := by
  rw [visible_eq]
  refine SourceFile.nodup_names_flatMap hw (fun file _ d hd => ?_)
    fun file _ => nodup_names_lastOfEachName _
  exact (lastNamed?_eq_some (mem_lastOfEachName_iff.mp hd)).1

/-! ## A list ordered by name is determined by its members -/

theorem pairwise_le_mergeSort (ds : List Declaration) :
    (ds.mergeSort fun a b => a.name.le b.name).Pairwise fun a b => a.name.le b.name := by
  refine List.pairwise_mergeSort ?_ ?_ ds
  · intro a b c hab hbc
    simp only [Name.le, decide_eq_true_eq] at hab hbc ⊢
    exact String.le_trans hab hbc
  · intro a b
    simp only [Name.le, Bool.or_eq_true, decide_eq_true_eq]
    exact String.le_total a.name.text b.name.text

theorem eq_of_ordered {ds es : List Declaration} (hp : ds.Perm es)
    (hnames : (ds.map (·.name)).Nodup)
    (hds : ds.Pairwise fun a b => a.name.le b.name)
    (hes : es.Pairwise fun a b => a.name.le b.name) : ds = es := by
  refine List.Perm.eq_of_pairwise ?_ hds hes hp
  intro a b ha hb hab hba
  simp only [Name.le, decide_eq_true_eq] at hab hba
  have htext : a.name.text = b.name.text := String.le_antisymm hab hba
  have hname : a.name = b.name := by
    cases ha' : a.name; cases hb' : b.name; simpa [ha', hb'] using htext
  exact List.inj_on_of_nodup_map hnames ha (hp.mem_iff.mpr hb) hname

end SymbolTable

namespace Merge

variable {table : SymbolTable}

theorem mem_lookups_iff (hw : table.WellFormed) {d : Declaration} :
    d ∈ lookups table ↔ table.find? d.name = some d ∧ d.isLookup = true ∧ d.parent = none := by
  unfold lookups SymbolTable.inNamespace
  rw [List.mem_filter, List.mem_mergeSort, List.mem_filter, SymbolTable.mem_visible_iff hw]
  refine ⟨?_, ?_⟩
  · intro h
    obtain ⟨⟨hfind, hplace⟩, hlookup⟩ := h
    simp only [decide_eq_true_eq] at hplace
    exact ⟨hfind, hlookup, hplace.2⟩
  · intro h
    obtain ⟨hfind, hlookup, hparent⟩ := h
    have hpackage : d.package = Vocabulary.lookupNamespace := by
      unfold Declaration.isLookup at hlookup
      simpa using (Bool.and_eq_true_iff.mp hlookup).1
    exact ⟨⟨hfind, by simp [hpackage, hparent]⟩, hlookup⟩

theorem nodup_names_lookups (hw : table.WellFormed) : ((lookups table).map (·.name)).Nodup := by
  have hsub : (lookups table).Sublist
      ((table.visible.filter fun d =>
        d.package = Vocabulary.lookupNamespace ∧ d.parent = none).mergeSort
          fun a b => a.name.le b.name) := List.filter_sublist
  refine (hsub.map _).nodup ?_
  refine ((List.mergeSort_perm _ _).map _).nodup_iff.mpr ?_
  exact (List.filter_sublist.map _).nodup (SymbolTable.nodup_names_visible hw)

/-- The name of a lookup is among the selected ones exactly when the lookup is selected. -/
theorem name_mem_select_iff (hw : table.WellFormed) {lookup : Declaration}
    (h : lookup ∈ lookups table) {scope : Name} {exclusions : List Name} :
    lookup.name ∈ (select table scope exclusions).map (·.name) ↔
      selects table scope exclusions lookup = true := by
  unfold select
  refine ⟨?_, ?_⟩
  · intro hin
    obtain ⟨d, hd, hname⟩ := List.mem_map.mp hin
    obtain ⟨hd, hselects⟩ := List.mem_filter.mp hd
    rw [← List.inj_on_of_nodup_map (nodup_names_lookups hw) hd h hname]
    exact hselects
  · exact fun hselects => List.mem_map_of_mem (List.mem_filter.mpr ⟨h, hselects⟩)

/-- Two tables with the same lookups list them in the same order. -/
theorem lookups_eq_of_mem_iff {other : SymbolTable} (hw : table.WellFormed)
    (hw' : other.WellFormed) (h : ∀ d, d ∈ lookups table ↔ d ∈ lookups other) :
    lookups table = lookups other := by
  have hperm : (lookups table).Perm (lookups other) :=
    (List.perm_ext_iff_of_nodup (nodup_names_lookups hw).of_map
      (nodup_names_lookups hw').of_map).mpr h
  exact SymbolTable.eq_of_ordered hperm (nodup_names_lookups hw)
    ((SymbolTable.pairwise_le_mergeSort _).filter _)
    ((SymbolTable.pairwise_le_mergeSort _).filter _)

end Merge

end ScopeMerge
