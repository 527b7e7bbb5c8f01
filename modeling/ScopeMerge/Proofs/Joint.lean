import ScopeMerge.Proofs.Waiting

/-!
# One session or two

A library and an application that depends on it can be compiled in one session,
or the library first and the application against its result. The rounds differ:
in the joint session the lookups of the library are generated beside those of
the application, in the separate one they are there from the start.

What the declarations contribute does not depend on it. That is a matter of how they
are read, and both sessions read them alike, provided that the two units
depend on each other by name only: no annotation of the library is declared by
the application, and no declaration is nested in one of the other unit. So the
joint session emits what the separate ones emit together (`Fitting.emitted_perm`).
-/

namespace ScopeMerge

open Vocabulary Attempt

/-- Whatever a unit declares. -/
def CompilationUnit.declarations (unit : CompilationUnit) : List Declaration :=
  unit.files.flatMap (·.declarations)

namespace Session

/-- A library without merge requests, and an application that can be compiled against it. -/
structure Separable (library application : CompilationUnit) : Prop where
  distinct : ∀ file ∈ library.files ++ application.files, file.DistinctNames
  noMerge : ∀ d ∈ library.declarations, d.isAnnotatedWith mergeComponent = false
  /-- The library uses no annotation that the application declares. -/
  types : ∀ d ∈ library.declarations, ∀ usage ∈ d.annotations,
    ∀ e ∈ application.declarations, e.name ≠ usage.type
  /-- No declaration is nested in one of the other unit. -/
  parents : ∀ d ∈ library.declarations, ∀ e ∈ application.declarations,
    d.parent ≠ some e.name ∧ e.parent ≠ some d.name

/-! ## The three sessions -/

/-- The table that the library is compiled from. -/
def libraryTable (library : CompilationUnit) : SymbolTable :=
  loadedTable [.sources library]

/-- The table that both are compiled from. -/
def jointTable (library application : CompilationUnit) : SymbolTable :=
  loadedTable [.sources library, .sources application]

/-- The result of compiling the library. -/
def priorResult (options : Options) (library : CompilationUnit) : CompilationUnit :=
  { files := library.files ++ emitted options (libraryTable library) }

/-- The table that the application is compiled from. -/
def applicationTable (options : Options) (library application : CompilationUnit) : SymbolTable :=
  loadedTable [.dependency (priorResult options library), .sources application]

section

variable (options : Options) (library application : CompilationUnit)

theorem files_libraryTable :
    (libraryTable library).files = SymbolTable.initial.files ++ library.files := by
  unfold libraryTable
  rw [files_loadedTable]
  simp [inputFiles, Input.files]

theorem files_jointTable :
    (jointTable library application).files =
      (libraryTable library).files ++ application.files := by
  unfold jointTable
  rw [files_loadedTable, files_libraryTable]
  simp [inputFiles, Input.files]

theorem files_applicationTable :
    (applicationTable options library application).files =
      (libraryTable library).files ++ emitted options (libraryTable library)
        ++ application.files := by
  unfold applicationTable
  rw [files_loadedTable, files_libraryTable]
  simp [inputFiles, Input.files, priorResult]

theorem localDeclarations_libraryTable :
    (libraryTable library).localDeclarations = library.declarations := by
  unfold libraryTable
  rw [localDeclarations_loadedTable]
  simp [sourceDeclarations, Input.sourceFiles, CompilationUnit.declarations]

theorem localDeclarations_jointTable :
    (jointTable library application).localDeclarations =
      library.declarations ++ application.declarations := by
  unfold jointTable
  rw [localDeclarations_loadedTable]
  simp [sourceDeclarations, Input.sourceFiles, CompilationUnit.declarations]

theorem localDeclarations_applicationTable :
    (applicationTable options library application).localDeclarations =
      application.declarations := by
  unfold applicationTable
  rw [localDeclarations_loadedTable]
  simp [sourceDeclarations, Input.sourceFiles, CompilationUnit.declarations]

end

variable {options : Options} {library application : CompilationUnit}

/-! None of the three sessions is given a name twice in one file. -/

theorem Separable.distinct_library (hsep : Separable library application) :
    ∀ file ∈ inputFiles [.sources library], file.DistinctNames := by
  intro file hf
  simp only [inputFiles, Input.files, List.flatMap_cons, List.flatMap_nil, List.append_nil] at hf
  exact hsep.distinct file (List.mem_append_left _ hf)

theorem Separable.distinct_joint (hsep : Separable library application) :
    ∀ file ∈ inputFiles [.sources library, .sources application], file.DistinctNames := by
  intro file hf
  simp only [inputFiles, Input.files, List.flatMap_cons, List.flatMap_nil, List.append_nil] at hf
  exact hsep.distinct file hf

theorem Separable.distinct_application (hsep : Separable library application) :
    ∀ file ∈ inputFiles [.dependency (priorResult options library), .sources application],
      file.DistinctNames := by
  intro file hf
  simp only [inputFiles, Input.files, priorResult, List.flatMap_cons, List.flatMap_nil,
    List.append_nil, List.mem_append] at hf
  rcases hf with (hf | hf) | hf
  · exact hsep.distinct file (List.mem_append_left _ hf)
  · exact emitted_distinct hf
  · exact hsep.distinct file (List.mem_append_right _ hf)

theorem applicationTable_perm :
    (applicationTable options library application).files.Perm
      ((jointTable library application).files ++ emitted options (libraryTable library)) := by
  rw [files_applicationTable, files_jointTable, List.append_assoc, List.append_assoc]
  exact List.perm_append_comm.append_left _

/-! ## The library -/

/-- A name that the application does not declare is found in both tables or in neither. -/
theorem find?_jointTable (hw : (jointTable library application).WellFormed) {name : Name}
    (hn : ∀ e ∈ application.declarations, e.name ≠ name) :
    (libraryTable library).find? name = (jointTable library application).find? name := by
  have hwl : (libraryTable library).WellFormed := by
    refine hw.of_subperm ?_
    rw [files_jointTable]
    exact (List.sublist_append_left _ _).subperm
  refine Option.ext fun d => ?_
  rw [SymbolTable.find?_eq_some_iff hwl, SymbolTable.find?_eq_some_iff hw, files_jointTable]
  refine ⟨?_, ?_⟩
  · intro h
    obtain ⟨file, hfile, hd⟩ := h
    exact ⟨file, List.mem_append_left _ hfile, hd⟩
  · intro h
    obtain ⟨file, hfile, hd⟩ := h
    rcases List.mem_append.mp hfile with hfile | hfile
    · exact ⟨file, hfile, hd⟩
    · obtain ⟨hmem, hname⟩ := SymbolTable.lastNamed?_eq_some hd
      exact absurd hname (hn d (List.mem_flatMap.mpr ⟨file, hfile, hmem⟩))

/-- The application declares no name of the library. -/
theorem ne_of_jointTable (hw : (jointTable library application).WellFormed) {d e : Declaration}
    (hd : d ∈ (libraryTable library).declarations) (he : e ∈ application.declarations) :
    e.name ≠ d.name := by
  unfold SymbolTable.WellFormed at hw
  rw [files_jointTable, List.pairwise_append] at hw
  obtain ⟨f, hf, hd⟩ := SymbolTable.mem_declarations_iff.mp hd
  obtain ⟨g, hg, he⟩ := List.mem_flatMap.mp he
  exact fun hname => (hw.2.2 f hf g hg).2 d hd e he hname.symm

theorem initial_annotations_declared : ∀ d ∈ SymbolTable.initial.declarations,
    ∀ usage ∈ d.annotations, ∃ e ∈ SymbolTable.initial.declarations, e.name = usage.type := by
  decide

/-- Whatever the library table holds reads the same in the joint session. -/
theorem sameReading_jointTable (hsep : Separable library application)
    (hw : (jointTable library application).WellFormed) {d : Declaration}
    (hd : d ∈ (libraryTable library).declarations) :
    SameReading (libraryTable library) (jointTable library application) d := by
  intro usage hu
  have hfind : (libraryTable library).find? usage.type
      = (jointTable library application).find? usage.type := by
    refine find?_jointTable hw fun e he => ?_
    -- either a built-in class, which the application cannot declare again, or the library's own
    rw [SymbolTable.declarations_eq, files_libraryTable, List.flatMap_append,
      ← SymbolTable.declarations_eq] at hd
    rcases List.mem_append.mp hd with hd | hd
    · obtain ⟨b, hb, hname⟩ := initial_annotations_declared d hd usage hu
      rw [← hname]
      refine ne_of_jointTable hw ?_ he
      rw [SymbolTable.declarations_eq, files_libraryTable, List.flatMap_append,
        ← SymbolTable.declarations_eq]
      exact List.mem_append_left _ hb
    · exact hsep.types d hd usage hu e he
  refine ⟨?_, ?_⟩
  · unfold SymbolTable.isScopeMarker
    rw [hfind]
  · unfold SymbolTable.parametersOf
    rw [hfind]

theorem factories_jointTable (hsep : Separable library application)
    (hw : (jointTable library application).WellFormed) {d : Declaration}
    (hd : d ∈ library.declarations) :
    SubcomponentShape.factories (libraryTable library) d
      = SubcomponentShape.factories (jointTable library application) d := by
  unfold SubcomponentShape.factories SymbolTable.nestedIn
  have hjoint : (jointTable library application).declarations
      = (libraryTable library).declarations ++ application.declarations := by
    rw [SymbolTable.declarations_eq, files_jointTable, List.flatMap_append,
      ← SymbolTable.declarations_eq]
    rfl
  have hnone : application.declarations.filter (·.parent = some d.name) = [] := by
    rw [List.filter_eq_nil_iff]
    intro e he
    simpa using (hsep.parents d hd e he).2
  rw [hjoint, List.filter_append, hnone, List.append_nil]
  refine congrArg _ (List.filterMap_congr fun e he => find?_jointTable hw fun x hx => ?_)
  exact ne_of_jointTable hw (List.mem_of_mem_filter he) hx

theorem sameContext_jointTable (hsep : Separable library application)
    (hw : (jointTable library application).WellFormed) {d : Declaration}
    (hd : d ∈ library.declarations) :
    SameContext (libraryTable library) (jointTable library application) d where
  shape := by
    refine ⟨sameReading_jointTable hsep hw ?_, List.Perm.of_eq (factories_jointTable hsep hw hd)⟩
    rw [← localDeclarations_libraryTable] at hd
    exact SymbolTable.localDeclarations_subset hd
  factories := by
    intro factory hf
    obtain ⟨e, _, hfind⟩ := List.mem_filterMap.mp (List.mem_of_mem_filter hf)
    exact sameReading_jointTable hsep hw (SymbolTable.find?_eq_some hfind).1
  enclosing := by
    -- the application declares no parent of a declaration of the library
    have hfind : d.parent.bind (libraryTable library).find?
        = d.parent.bind (jointTable library application).find? := by
      cases hparent : d.parent with
      | none => rfl
      | some parent =>
          refine find?_jointTable hw fun e he hname => ?_
          exact (hsep.parents d hd e he).1 (by rw [hparent, hname])
    unfold SubcomponentShape.enclosing
    rw [hfind]

/-! ## What is emitted -/

theorem extends_jointTable
    (hw : (applicationTable options library application).WellFormed) :
    (applicationTable options library application).Extends (jointTable library application)
      (emitted options (libraryTable library)) :=
  ⟨applicationTable_perm, hw, fun _ => inert_of_emitted⟩

/-- What the application contributes, it contributes in both sessions. -/
theorem emissions_application
    (hw : (applicationTable options library application).WellFormed) :
    emissions options (applicationTable options library application)
      = Round.emissions options (jointTable library application) application.declarations := by
  unfold emissions
  rw [localDeclarations_applicationTable]
  exact (emissions_congr fun d _ => (extends_jointTable hw).sameContext d).symm

/-- What the joint session emits, with the part of the library as in a session of its own. -/
theorem emissions_joint_perm (options : Options) (hsep : Separable library application)
    (hw : (jointTable library application).WellFormed) :
    (emissions options (jointTable library application)).Perm
      (emissions options (libraryTable library) ++
        Round.emissions options (jointTable library application) application.declarations) := by
  have hlibrary : emissions options (libraryTable library)
      = Round.emissions options (jointTable library application) library.declarations := by
    unfold emissions
    rw [localDeclarations_libraryTable]
    exact emissions_congr fun d hd => sameContext_jointTable hsep hw hd
  unfold emissions at hlibrary ⊢
  rw [localDeclarations_jointTable, hlibrary]
  exact emissions_append_perm _ _ _ _

/-- What holds as soon as everything that the joint session emits fits into its table. -/
structure Fitting (options : Options) (library application : CompilationUnit) : Prop where
  joint : ((jointTable library application).append
    (emitted options (jointTable library application)) true).WellFormed
  application : (applicationTable options library application).WellFormed

theorem Fitting.base (h : Fitting options library application) :
    (jointTable library application).WellFormed :=
  h.joint.of_append

/-- **The emissions of the joint session are those of the two separate ones**, in another
order. -/
theorem Fitting.emissions_perm (h : Fitting options library application)
    (hsep : Separable library application) :
    (emissions options (jointTable library application)).Perm
      (emissions options (libraryTable library) ++
        emissions options (applicationTable options library application)) := by
  rw [emissions_application h.application]
  exact emissions_joint_perm options hsep h.base

theorem Fitting.emitted_perm (h : Fitting options library application)
    (hsep : Separable library application) :
    (emitted options (jointTable library application)).Perm
      (emitted options (libraryTable library) ++
        emitted options (applicationTable options library application)) := by
  have hperm := written_perm (h.emissions_perm hsep)
  rw [written_append] at hperm
  exact hperm

theorem fitting_of_joint (hsep : Separable library application)
    (h : ((jointTable library application).append
      (emitted options (jointTable library application)) true).WellFormed) :
    Fitting options library application := by
  refine ⟨h, h.of_subperm ?_⟩
  have hperm := written_perm (emissions_joint_perm options hsep h.of_append)
  rw [written_append] at hperm
  rw [SymbolTable.files_append]
  refine applicationTable_perm.subperm.trans ?_
  refine (List.Subperm.trans ?_ ((hperm.append_left _).symm.subperm))
  rw [← List.append_assoc]
  exact (List.sublist_append_left _ _).subperm

theorem fitting_of_application (hsep : Separable library application)
    (h : ((applicationTable options library application).append
      (emitted options (applicationTable options library application)) true).WellFormed) :
    Fitting options library application := by
  have hw := h.of_append
  have hbase : (jointTable library application).WellFormed := (extends_jointTable hw).base
  refine ⟨h.of_perm ?_, hw⟩
  have hperm := written_perm (emissions_joint_perm options hsep hbase)
  rw [written_append, ← emissions_application hw] at hperm
  rw [SymbolTable.files_append, SymbolTable.files_append]
  refine (applicationTable_perm.append_right _).trans ?_
  rw [List.append_assoc]
  exact (hperm.append_left _).symm

end Session

end ScopeMerge
