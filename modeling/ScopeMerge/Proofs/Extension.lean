import ScopeMerge.Proofs.Generated

/-!
# What generated files leave unchanged

A table that grew by generated files reads every declaration as before: an inert
declaration under a name that was not taken is neither an annotation class that
says anything, nor a factory, nor a subcomponent. As long as what was added
contains no lookup, and nothing that the origin of an older lookup names, a merge
cannot tell the two tables apart (`Extends.agrees`). If it consists of lookups, a
merge from the table before leaves just these out (`Extends.thins`).

The order in which the files were added does not matter to any of this.
-/

namespace ScopeMerge

open Vocabulary

/-- A table holds the files of another one and further ones that are inert. -/
structure SymbolTable.Extends (t' t : SymbolTable) (extra : List SourceFile) : Prop where
  files : t'.files.Perm (t.files ++ extra)
  wellFormed : t'.WellFormed
  inert : ∀ file ∈ extra, file.Inert

namespace SymbolTable.Extends

variable {t t' : SymbolTable} {extra : List SourceFile}

theorem base (h : t'.Extends t extra) : t.WellFormed :=
  h.wellFormed.of_subperm ((List.sublist_append_left _ _).subperm.trans h.files.symm.subperm)

theorem subset (h : t'.Extends t extra) {file : SourceFile} (hf : file ∈ t.files) :
    file ∈ t'.files :=
  h.files.mem_iff.mpr (List.mem_append_left _ hf)

theorem extra_subset (h : t'.Extends t extra) {file : SourceFile} (hf : file ∈ extra) :
    file ∈ t'.files :=
  h.files.mem_iff.mpr (List.mem_append_right _ hf)

/-! ## Names -/

theorem apart (h : t'.Extends t extra) {d : Declaration} (hd : d ∈ t.declarations)
    {file : SourceFile} (hfile : file ∈ extra) {e : Declaration} (he : e ∈ file.declarations) :
    d.name ≠ e.name := by
  obtain ⟨g, hg, hd⟩ := mem_declarations_iff.mp hd
  have hw : (t.files ++ extra).Pairwise SourceFile.Apart :=
    h.files.pairwise h.wellFormed fun hab => hab.symm
  exact ((List.pairwise_append.mp hw).2.2 g hg file hfile).2 d hd e he

theorem find?_mono (h : t'.Extends t extra) {name : Name} {d : Declaration}
    (hd : t.find? name = some d) : t'.find? name = some d := by
  obtain ⟨file, hfile, hlast⟩ := (find?_eq_some_iff h.base).mp hd
  exact (find?_eq_some_iff h.wellFormed).mpr ⟨file, h.subset hfile, hlast⟩

theorem find?_cases (h : t'.Extends t extra) {name : Name} {d : Declaration}
    (hd : t'.find? name = some d) :
    t.find? name = some d ∨ ∃ file ∈ extra, d ∈ file.declarations := by
  obtain ⟨file, hfile, hlast⟩ := (find?_eq_some_iff h.wellFormed).mp hd
  rcases List.mem_append.mp (h.files.mem_iff.mp hfile) with hold | hnew
  · exact Or.inl ((find?_eq_some_iff h.base).mpr ⟨file, hold, hlast⟩)
  · exact Or.inr ⟨file, hnew, (lastNamed?_eq_some hlast).1⟩

theorem find?_inert (h : t'.Extends t extra) {name : Name} {d : Declaration}
    (hd : t'.find? name = some d) : t.find? name = some d ∨ d.Inert := by
  rcases h.find?_cases hd with hold | ⟨file, hfile, hmem⟩
  · exact Or.inl hold
  · exact Or.inr (h.inert file hfile d hmem)

/-- What is found under an added name was added. -/
theorem mem_of_find? (h : t'.Extends t extra) {file : SourceFile} (hfile : file ∈ extra)
    {e : Declaration} (he : e ∈ file.declarations) {d : Declaration}
    (hd : t'.find? e.name = some d) : d ∈ file.declarations := by
  rw [find?_eq_lastNamed? h.wellFormed (h.extra_subset hfile) he] at hd
  exact (lastNamed?_eq_some hd).1

theorem exists_of_find? (h : t'.Extends t extra) {name : Name}
    (hname : name ∈ CompilationUnit.names { files := extra }) {d : Declaration}
    (hd : t'.find? name = some d) : ∃ file ∈ extra, d ∈ file.declarations := by
  obtain ⟨file, hfile, e, he, rfl⟩ := CompilationUnit.mem_names_iff.mp hname
  exact ⟨file, hfile, h.mem_of_find? hfile he hd⟩

/-- What is found under a name after a filter that no inert declaration passes. -/
theorem filter_find?_eq (h : t'.Extends t extra) (p : Declaration → Bool)
    (hp : ∀ d : Declaration, d.Inert → p d = false) (name : Name) :
    (t'.find? name).filter p = (t.find? name).filter p := by
  cases hold : t.find? name with
  | some d => rw [h.find?_mono hold]
  | none =>
      cases hnew : t'.find? name with
      | none => rfl
      | some d =>
          rcases h.find?_inert hnew with hd | hd
          · rw [hold] at hd
            exact nomatch hd
          · rw [Option.filter_some_neg (by simp [hp d hd])]
            rfl

theorem perm_declarations (h : t'.Extends t extra) :
    t'.declarations.Perm (t.declarations ++ extra.flatMap (·.declarations)) := by
  rw [declarations_eq, declarations_eq, ← List.flatMap_append]
  exact h.files.flatMap_right _

theorem declarations_subset (h : t'.Extends t extra) : t.declarations ⊆ t'.declarations :=
  fun _ hd => h.perm_declarations.mem_iff.mpr (List.mem_append_left _ hd)

/-! ## Reading declarations -/

/-- **Every annotation class says what it said before.** -/
theorem sameClass (h : t'.Extends t extra) (n : Name) : SameClass t t' n where
  marker := by
    have hfilter := h.filter_find?_eq (·.isAnnotatedWith scopeMarker)
      (fun d hd => hd.annotations scopeMarker (by decide)) n
    -- an inert declaration is no scope marker, so it does not matter that it is found
    unfold isScopeMarker
    rw [← Option.isSome_filter, ← Option.isSome_filter, hfilter]
  parameters := by
    unfold parametersOf
    cases hold : t.find? n with
    | some d => rw [h.find?_mono hold]
    | none =>
        cases hnew : t'.find? n with
        | none => rfl
        | some d =>
            rcases h.find?_inert hnew with hd | hd
            · rw [hold] at hd
              exact nomatch hd
            · simp [hd.parameters]

theorem sameReading (h : t'.Extends t extra) (d : Declaration) : SameReading t t' d :=
  fun usage _ => h.sameClass usage.type

theorem enclosing_eq (h : t'.Extends t extra) (d : Declaration) :
    SubcomponentShape.enclosing t d = SubcomponentShape.enclosing t' d := by
  unfold SubcomponentShape.enclosing
  cases d.parent with
  | none => rfl
  | some parent =>
      rw [Option.bind_some, Option.bind_some, h.filter_find?_eq (·.isAnnotatedWith _)
        fun e he => he.annotations contributesSubcomponent (by decide)]

theorem factories_perm (h : t'.Extends t extra) (d : Declaration) :
    (SubcomponentShape.factories t d).Perm (SubcomponentShape.factories t' d) := by
  unfold SubcomponentShape.factories nestedIn
  refine List.Perm.symm ((((h.perm_declarations.filter _).filterMap _).filter _).trans ?_)
  rw [List.filter_append, List.filterMap_append, List.filter_append]
  -- what was added is inert, so no factory is among it
  have hnone : (((extra.flatMap (·.declarations)).filter (·.parent = some d.name)).filterMap
      fun e => t'.find? e.name).filter (·.isAnnotatedWith subcomponentFactory) = [] := by
    rw [List.filter_eq_nil_iff]
    intro x hx
    obtain ⟨e, he, hfind⟩ := List.mem_filterMap.mp hx
    obtain ⟨file, hfile, hmem⟩ := List.mem_flatMap.mp (List.mem_of_mem_filter he)
    have hx := h.inert file hfile x (h.mem_of_find? hfile hmem hfind)
    simp [hx.annotations subcomponentFactory (by decide)]
  rw [hnone, List.append_nil]
  refine List.Perm.of_eq (congrArg _ (List.filterMap_congr fun e he => ?_))
  obtain ⟨found, hfound⟩ := exists_find?_of_mem (List.mem_of_mem_filter he)
  rw [hfound, h.find?_mono hfound]

theorem sameShape (h : t'.Extends t extra) (d : Declaration) :
    SubcomponentShape.SameShape t t' d :=
  ⟨h.sameReading d, h.factories_perm d⟩

/-! ## Merging -/

/-- **The lookups that were there before** are those that have none of the added names. -/
theorem lookups_eq_filter (h : t'.Extends t extra) :
    Merge.lookups t
      = (Merge.lookups t').filter fun d => d.name ∉ CompilationUnit.names { files := extra } := by
  refine SymbolTable.eq_of_ordered ?_ (Merge.nodup_names_lookups h.base)
    ((SymbolTable.pairwise_le_mergeSort _).filter _)
    (((SymbolTable.pairwise_le_mergeSort _).filter _).filter _)
  refine (List.perm_ext_iff_of_nodup (Merge.nodup_names_lookups h.base).of_map
    ((Merge.nodup_names_lookups h.wellFormed).of_map.filter _)).mpr fun d => ?_
  rw [List.mem_filter, Merge.mem_lookups_iff h.base, Merge.mem_lookups_iff h.wellFormed,
    decide_eq_true_eq]
  refine ⟨?_, ?_⟩
  · rintro ⟨hfind, hlookup, hparent⟩
    refine ⟨⟨h.find?_mono hfind, hlookup, hparent⟩, fun hname => ?_⟩
    obtain ⟨file, hfile, e, he, hsame⟩ := CompilationUnit.mem_names_iff.mp hname
    exact h.apart (find?_eq_some hfind).1 hfile he hsame.symm
  · rintro ⟨⟨hfind, hlookup, hparent⟩, hname⟩
    refine ⟨(h.find?_cases hfind).resolve_right ?_, hlookup, hparent⟩
    rintro ⟨file, hfile, hmem⟩
    exact hname (CompilationUnit.mem_names_iff.mpr ⟨file, hfile, d, hmem, rfl⟩)

theorem lookups_eq (h : t'.Extends t extra)
    (hextra : ∀ file ∈ extra, ∀ d ∈ file.declarations, d.isLookup = false) :
    Merge.lookups t = Merge.lookups t' := by
  rw [h.lookups_eq_filter, List.filter_eq_self]
  intro d hd
  obtain ⟨hfind, hlookup, _⟩ := (Merge.mem_lookups_iff h.wellFormed).mp hd
  refine decide_eq_true fun hname => ?_
  obtain ⟨file, hfile, hmem⟩ := h.exists_of_find? hname hfind
  rw [hextra file hfile d hmem] at hlookup
  exact nomatch hlookup

/-- **Declarations are linked as before**, if no lookup has its origin in what was added. -/
theorem links (h : t'.Extends t extra)
    (horigins : ∀ d ∈ t'.declarations, d.isLookup = true → ∀ o, d.origin = some o →
      ∀ file ∈ extra, ∀ e ∈ file.declarations, e.name ≠ o) : SameLinks t t' where
  classes := h.sameClass
  factories := h.factories_perm
  enclosing := h.enclosing_eq
  origins := by
    intro d hd
    have hin : d ∈ t'.declarations :=
      hd.elim (fun hd => h.declarations_subset hd) id
    unfold Merge.origin?
    cases hlookup : d.isLookup with
    | false => rfl
    | true =>
        rw [if_pos rfl, if_pos rfl]
        cases ho : d.origin with
        | none => rfl
        | some o =>
            rw [Option.bind_some, Option.bind_some]
            cases hfind : t'.find? o with
            | some found =>
                rcases h.find?_cases hfind with hfound | ⟨file, hfile, hmem⟩
                · exact hfound
                · exact absurd (find?_eq_some hfind).2
                    (horigins d hin hlookup o ho file hfile found hmem)
            | none =>
                cases hfound : t.find? o with
                | none => rfl
                | some found => rw [h.find?_mono hfound] at hfind; exact nomatch hfind

/-- **A merge does not notice files that contain neither a lookup nor the origin of one.** -/
theorem agrees (h : t'.Extends t extra)
    (hextra : ∀ file ∈ extra, ∀ d ∈ file.declarations, d.isLookup = false)
    (horigins : ∀ d ∈ t.declarations, d.isLookup = true → ∀ o, d.origin = some o →
      ∀ file ∈ extra, ∀ e ∈ file.declarations, e.name ≠ o) : Agrees t t' where
  toSameLinks := h.links fun d hd hlookup => by
    rcases List.mem_append.mp (h.perm_declarations.mem_iff.mp hd) with hd | hd
    · exact horigins d hd hlookup
    · obtain ⟨file, hfile, hmem⟩ := List.mem_flatMap.mp hd
      rw [hextra file hfile d hmem] at hlookup
      exact nomatch hlookup
  lookups := h.lookups_eq hextra

/-- **To a merge the table before is the one after without some lookups**, if all that was added
are lookups that stand for no factory, and none is the origin of another lookup. -/
theorem thins (h : t'.Extends t extra)
    (hextra : ∀ file ∈ extra, ∀ d ∈ file.declarations, d.isSubcomponentLookup = false)
    (horigins : ∀ d ∈ t'.declarations, d.isLookup = true → ∀ o, d.origin = some o →
      ∀ file ∈ extra, ∀ e ∈ file.declarations, e.name ≠ o) :
    Thins (CompilationUnit.names { files := extra }) t' t := by
  refine ⟨(h.links horigins).symm, h.lookups_eq_filter, fun d hd hn => ?_, fun n hn d hd => ?_⟩
  · obtain ⟨file, hfile, hmem⟩ :=
      h.exists_of_find? hn ((Merge.mem_lookups_iff h.wellFormed).mp hd).1
    exact hextra file hfile d hmem
  · obtain ⟨file, hfile, hmem⟩ := h.exists_of_find? hn hd
    have hinert := h.inert file hfile d hmem
    exact ⟨hinert.annotations contributesSubcomponent (by decide),
      hinert.annotations subcomponentFactory (by decide)⟩

end SymbolTable.Extends

end ScopeMerge
