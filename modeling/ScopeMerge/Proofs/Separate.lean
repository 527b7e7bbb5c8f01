import ScopeMerge.Proofs.Joint

/-!
# Separate compilation

Whether a library and an application are compiled in one session or in two, the
outcome is the same. What is emitted agrees by `Fitting.emitted_perm`. What a
merge request is answered depends on the lookups, and by the time of the
merge both sessions have the same ones, whichever of them waits
(`agrees_of_part`). So the two sessions over the parts succeed exactly when the
joint one does, and they generate the same files.

There is one exception. A marker of a custom annotation is no contribution that a
merge waits for, and it is visible earlier in a dependency, or in a session that
waits for something else, than in a session that does not wait. A lookup that
names such a marker as its origin is therefore ruled out, and
`separate_compilation_differs` shows that it has to be.
-/

namespace ScopeMerge

open Vocabulary Attempt

namespace Session

/-- No lookup claims to stand for the marker of a custom annotation class. -/
def NoMarkerOrigins (ds : List Declaration) : Prop :=
  ∀ d ∈ ds, d.isLookup = true → ∀ e ∈ ds, e.kind = .annotationClass →
    e.isAnnotatedWith contributingAnnotation = true → d.origin ≠ some (markerName e.name)

variable {options : Options} {library application : CompilationUnit}

/-! ## What the merge requests are answered from -/

/-- A file that declares a lookup. -/
def isLookupFile (file : SourceFile) : Bool :=
  file.declarations.any (·.isLookup)

/-- A first round that does not wait has no lookup to write. -/
theorem filter_isLookupFile_of_not_waits {start : SymbolTable} (hr : Ready start)
    (hwaits : waits options start = false) :
    (emitted options start).filter isLookupFile = [] := by
  rw [List.filter_eq_nil_iff]
  intro file hf
  obtain ⟨d, _, rfl, _⟩ := marker_of_not_waits hr hwaits hf
  unfold isLookupFile SourceFile.generated
  rw [List.any_cons, (Contribution.passive_markerOf d).2]
  simp

/-- What is emitted and is no lookup is a marker. -/
theorem marker_of_not_isLookupFile {start : SymbolTable} {file : SourceFile}
    (h : file ∈ emitted options start) (hnot : isLookupFile file = false) :
    ∃ d ∈ start.localDeclarations, file = .generated (Contribution.markerOf d) ∧
      d.isAnnotatedWith contributingAnnotation = true ∧ d.kind = .annotationClass := by
  obtain ⟨found, rfl, d, hd, hcases⟩ := emitted_cases h
  rcases hcases with ⟨_, _, hstands, _⟩ | ⟨rfl, hmarks⟩
  · unfold isLookupFile SourceFile.generated at hnot
    rw [List.any_cons, hstands.isLookup] at hnot
    exact nomatch hnot
  · exact ⟨d, hd, rfl, hmarks⟩

/-- **What else was emitted makes no difference to a merge.** The table may hold any part of it, as
long as no lookup is missing. -/
theorem agrees_of_part {start table : SymbolTable} (part : List SourceFile)
    (hw : table.WellFormed) (hfiles : table.files.Perm (start.files ++ part))
    (hpart : ∀ file ∈ part, file ∈ emitted options start)
    (hlookups : (part.filter isLookupFile).Perm ((emitted options start).filter isLookupFile))
    (horigins : ∀ d ∈ start.declarations, d.isLookup = true →
      ∀ e ∈ start.localDeclarations, e.kind = .annotationClass →
        e.isAnnotatedWith contributingAnnotation = true →
          d.origin ≠ some (markerName e.name)) :
    Agrees (start.append ((emitted options start).filter isLookupFile) true) table := by
  have hextends : table.Extends
      (start.append ((emitted options start).filter isLookupFile) true)
      (part.filter fun file => !isLookupFile file) := by
    refine ⟨?_, hw, fun file hf => inert_of_emitted (hpart file (List.mem_of_mem_filter hf))⟩
    rw [SymbolTable.files_append, List.append_assoc]
    refine hfiles.trans (List.Perm.append_left _ ?_)
    exact (List.filter_append_perm isLookupFile part).symm.trans (hlookups.append_right _)
  have hnot : ∀ file ∈ part.filter fun file => !isLookupFile file,
      isLookupFile file = false := fun file hf => by
    simpa using (List.mem_filter.mp hf).2
  refine hextends.agrees ?_ ?_
  · intro file hf d hd
    have hnone := hnot file hf
    unfold isLookupFile at hnone
    rw [List.any_eq_false] at hnone
    simpa using hnone d hd
  · intro d hd hlookup o ho file hf e he hname
    have hemitted := hpart file (List.mem_of_mem_filter hf)
    rcases SymbolTable.mem_declarations_append.mp hd with hd | ⟨g, hg, hd⟩
    · -- a lookup that was there from the start does not stand for a marker
      obtain ⟨x, hx, rfl, hannotated, hkind⟩ :=
        marker_of_not_isLookupFile hemitted (hnot file hf)
      obtain rfl := List.mem_singleton.mp he
      refine horigins d hd hlookup x hx hkind hannotated ?_
      rw [ho, ← hname]
      rfl
    · -- a lookup that was emitted stands for something that was there from the start
      obtain ⟨x, hx, rfl⟩ := origin_of_emitted (List.mem_of_mem_filter hg) hd hlookup ho
      exact hextends.apart (SymbolTable.mem_declarations_append.mpr (Or.inl hx)) hf he hname.symm

/-- What the application emits fits beside what the library emitted. -/
theorem Fitting.application_append (h : Fitting options library application)
    (hsep : Separable library application) :
    ((applicationTable options library application).append
      (emitted options (applicationTable options library application)) true).WellFormed := by
  refine h.joint.of_perm ?_
  rw [SymbolTable.files_append, SymbolTable.files_append]
  refine ((h.emitted_perm hsep).append_left _).trans ?_
  rw [← List.append_assoc]
  exact (applicationTable_perm.append_right _).symm

/-- Waiting or not, the lookups that were emitted are in the table to merge from. -/
theorem filter_isLookupFile_of_waits {start : SymbolTable} (hr : Ready start) :
    (if waits options start then emitted options start else []).filter isLookupFile =
      (emitted options start).filter isLookupFile := by
  cases hwaits : waits options start with
  | true => rw [if_pos rfl]
  | false =>
      rw [filter_isLookupFile_of_not_waits hr hwaits]
      rfl

theorem mem_ite_nil {α : Type} {c : Bool} {xs : List α} {x : α} (h : x ∈ if c then xs else []) :
    x ∈ xs := by
  cases c with
  | true => exact h
  | false => exact nomatch h

theorem ready_jointTable (hsep : Separable library application)
    (hw : (jointTable library application).WellFormed) :
    Ready (jointTable library application) :=
  ready_loadedTable hw hsep.distinct_joint

theorem ready_applicationTable (hsep : Separable library application)
    (hw : (applicationTable options library application).WellFormed) :
    Ready (applicationTable options library application) :=
  ready_loadedTable hw hsep.distinct_application

/-- The origins that matter to `agrees_of_part`. -/
theorem origins_jointTable (hmarkers : NoMarkerOrigins (library.declarations ++
    application.declarations)) :
    ∀ d ∈ (jointTable library application).declarations, d.isLookup = true →
      ∀ e ∈ (jointTable library application).localDeclarations, e.kind = .annotationClass →
        e.isAnnotatedWith contributingAnnotation = true →
          d.origin ≠ some (markerName e.name) := by
  intro d hd hlookup e he
  rw [localDeclarations_jointTable] at he
  refine hmarkers d ?_ hlookup e he
  have hinput := isLookup_of_loaded hd hlookup
  simpa [inputDeclarations, inputFiles, Input.files, CompilationUnit.declarations] using hinput

/-- The joint session merges from all lookups, whether it waits or not. -/
theorem Fitting.agrees_joint (h : Fitting options library application)
    (hsep : Separable library application)
    (hmarkers : NoMarkerOrigins (library.declarations ++ application.declarations)) :
    Agrees ((jointTable library application).append
      ((emitted options (jointTable library application)).filter isLookupFile) true)
      (mergeTable options (jointTable library application)) := by
  refine agrees_of_part _ (wellFormed_mergeTable h.joint)
    (List.Perm.of_eq (files_mergeTable _ _)) (fun file => mem_ite_nil) ?_
    (origins_jointTable hmarkers)
  rw [filter_isLookupFile_of_waits (ready_jointTable hsep h.base)]

/-- And so does the separate one, where those of the library were there from the start. -/
theorem Fitting.agrees_application (h : Fitting options library application)
    (hsep : Separable library application)
    (hmarkers : NoMarkerOrigins (library.declarations ++ application.declarations)) :
    Agrees ((jointTable library application).append
      ((emitted options (jointTable library application)).filter isLookupFile) true)
      (mergeTable options (applicationTable options library application)) := by
  refine agrees_of_part (emitted options (libraryTable library) ++
    if waits options (applicationTable options library application)
      then emitted options (applicationTable options library application) else [])
    (wellFormed_mergeTable (h.application_append hsep)) ?_ ?_ ?_ (origins_jointTable hmarkers)
  · rw [files_mergeTable, ← List.append_assoc]
    exact applicationTable_perm.append_right _
  · intro file hf
    rw [(h.emitted_perm hsep).mem_iff, List.mem_append]
    exact (List.mem_append.mp hf).imp_right mem_ite_nil
  · rw [List.filter_append, filter_isLookupFile_of_waits
      (ready_applicationTable hsep h.application), ← List.filter_append]
    exact ((h.emitted_perm hsep).filter _).symm

/-- All merge requests are requests of the application. -/
theorem requests_jointTable (hsep : Separable library application) :
    requests options (jointTable library application)
      = requests options (applicationTable options library application) := by
  have hnone : library.declarations.filter (·.isAnnotatedWith mergeComponent) = [] := by
    rw [List.filter_eq_nil_iff]
    intro d hd
    simp [hsep.noMerge d hd]
  unfold requests
  rw [localDeclarations_jointTable, localDeclarations_applicationTable, List.filter_append,
    hnone, List.nil_append]

/-- **Both sessions answer a merge request from the same lookups.** -/
theorem Fitting.answers_eq (h : Fitting options library application)
    (hsep : Separable library application)
    (hmarkers : NoMarkerOrigins (library.declarations ++ application.declarations)) :
    answers options (jointTable library application) =
      answers options (applicationTable options library application) := by
  unfold answers
  rw [requests_jointTable hsep]
  refine List.map_congr_left fun d _ => ?_
  have hjoint := ofResult_finalize_congr (h.agrees_joint hsep hmarkers) d
  have happlication := ofResult_finalize_congr (h.agrees_application hsep hmarkers) d
  exact hjoint.symm.trans happlication

/-- So they generate the same files in answer. -/
theorem Fitting.merged_eq (h : Fitting options library application)
    (hsep : Separable library application)
    (hmarkers : NoMarkerOrigins (library.declarations ++ application.declarations)) :
    merged options (jointTable library application)
      = merged options (applicationTable options library application) :=
  congrArg written (h.answers_eq hsep hmarkers)

/-! ## The outcomes -/

theorem requests_libraryTable (hsep : Separable library application) :
    requests options (libraryTable library) = [] := by
  rw [List.eq_nil_iff_forall_not_mem]
  intro r hr
  obtain ⟨hmem, hannotated⟩ := requests_subset hr
  rw [localDeclarations_libraryTable] at hmem
  rw [hsep.noMerge r hmem] at hannotated
  exact nomatch hannotated

theorem answers_libraryTable (hsep : Separable library application) :
    answers options (libraryTable library) = [] := by
  unfold answers
  rw [requests_libraryTable hsep]
  rfl

theorem merged_libraryTable (hsep : Separable library application) :
    merged options (libraryTable library) = [] := by
  unfold merged
  rw [answers_libraryTable hsep]
  rfl

/-- The files of both last tables. -/
theorem Fitting.files_perm (h : Fitting options library application)
    (hsep : Separable library application)
    (hmarkers : NoMarkerOrigins (library.declarations ++ application.declarations)) :
    ((jointTable library application).append (emitted options (jointTable library application)
        ++ merged options (jointTable library application)) true).files.Perm
      ((applicationTable options library application).append
        (emitted options (applicationTable options library application)
          ++ merged options (applicationTable options library application)) true).files := by
  rw [SymbolTable.files_append, SymbolTable.files_append, ← List.append_assoc,
    ← List.append_assoc, h.merged_eq hsep hmarkers]
  refine List.Perm.append_right _ (((h.emitted_perm hsep).append_left _).trans ?_)
  rw [← List.append_assoc]
  exact (applicationTable_perm.append_right _).symm

/-- **The joint session goes through exactly when the two separate ones do.** -/
theorem goesThrough_jointTable_iff (hsep : Separable library application)
    (hmarkers : NoMarkerOrigins (library.declarations ++ application.declarations)) :
    GoesThrough options (jointTable library application) ↔
      GoesThrough options (libraryTable library) ∧
        GoesThrough options (applicationTable options library application) := by
  refine ⟨?_, ?_⟩
  · intro hg
    -- if the joint session fits, so do the parts of it
    have h := fitting_of_joint hsep (wellFormed_append_emitted hg.fits)
    have hemits := hg.emits
    rw [allSucceed_perm (h.emissions_perm hsep), allSucceed_append] at hemits
    have hmerges := hg.merges
    rw [h.answers_eq hsep hmarkers] at hmerges
    refine ⟨⟨hemits.1, ?_, ?_⟩, ⟨hemits.2, hmerges,
      hg.fits.of_perm (h.files_perm hsep hmarkers)⟩⟩
    · rw [answers_libraryTable hsep]
      exact nofun
    · refine h.application.of_subperm ?_
      rw [merged_libraryTable hsep, List.append_nil, SymbolTable.files_append,
        files_applicationTable]
      exact (List.sublist_append_left _ _).subperm
  · intro h
    obtain ⟨hlibrary, hg⟩ := h
    have h := fitting_of_application hsep (wellFormed_append_emitted hg.fits)
    refine ⟨?_, ?_, hg.fits.of_perm (h.files_perm hsep hmarkers).symm⟩
    · rw [allSucceed_perm (h.emissions_perm hsep), allSucceed_append]
      exact ⟨hlibrary.emits, hg.emits⟩
    · rw [h.answers_eq hsep hmarkers]
      exact hg.merges

/-- What the library session hands on. -/
theorem unit_library (hsep : Separable library application) {final : State}
    (hs : Succeeded options (libraryTable library) final) :
    final.result.unit = priorResult options library := by
  have hlocal : final.table.localFiles
      = library.files ++ emitted options (libraryTable library) := by
    rw [hs.underway.localFiles, hs.concluded.files, merged_libraryTable hsep, List.append_nil]
    unfold libraryTable
    rw [localFiles_loadedTable]
    simp [Input.sourceFiles]
  show final.table.localUnit = _
  rw [SymbolTable.localUnit_of_distinct hs.underway.wellFormed, hlocal]
  · rfl
  · rw [hlocal]
    intro file hf
    rcases List.mem_append.mp hf with hf | hf
    · exact hsep.distinct file (List.mem_append_left _ hf)
    · exact emitted_distinct hf

/-- The generated files of the joint session are those of the separate ones. -/
theorem mem_files_joint_iff (hsep : Separable library application)
    (hmarkers : NoMarkerOrigins (library.declarations ++ application.declarations))
    {finalL finalA finalJ : State} (hlibrary : Succeeded options (libraryTable library) finalL)
    (happlication : Succeeded options (applicationTable options library application) finalA)
    (hjoint : Succeeded options (jointTable library application) finalJ) (file : SourceFile) :
    file ∈ finalJ.workspace.output.files ↔
      file ∈ finalL.workspace.output.files ∨ file ∈ finalA.workspace.output.files := by
  have h := fitting_of_joint hsep (wellFormed_append_emitted hjoint.goesThrough.fits)
  rw [hjoint.concluded.files, hlibrary.concluded.files, happlication.concluded.files,
    merged_libraryTable hsep, List.append_nil, h.merged_eq hsep hmarkers, List.mem_append,
    List.mem_append,
    (h.emitted_perm hsep).mem_iff, List.mem_append, or_assoc]

/-- **Separate compilation agrees with joint compilation.** A library and an application that are
apart except for names can be compiled one after the other exactly when they can be compiled in
one session, and the joint session generates what the separate ones generate together. Every merge
request of the application is answered by the same file, its final components included. -/
theorem separate_compilation_agrees {n : Nat} (hn : 4 ≤ n)
    (hsep : Separable library application)
    (hmarkers : NoMarkerOrigins (library.declarations ++ application.declarations)) :
    ((∃ finalL, compile options n [.sources library] = .ok finalL ∧
        ∃ finalA, compile options n
          [.dependency finalL.result.unit, .sources application] = .ok finalA) ↔
      ∃ finalJ, compile options n [.sources library, .sources application] = .ok finalJ) ∧
    ∀ finalL finalA finalJ,
      compile options n [.sources library] = .ok finalL →
      compile options n [.dependency finalL.result.unit, .sources application] = .ok finalA →
      compile options n [.sources library, .sources application] = .ok finalJ →
        (∀ file, file ∈ finalJ.workspace.output.files ↔
          file ∈ finalL.workspace.output.files ∨ file ∈ finalA.workspace.output.files) ∧
        (options.isDisabled Processor.mergeComponent.id = false →
          ∀ r ∈ application.declarations, r.isAnnotatedWith mergeComponent = true →
            ∃ file, file.id = .generated r.aggregateName ∧
              file ∈ finalJ.workspace.output.files ∧ file ∈ finalA.workspace.output.files) := by
  -- the second session starts from what the first one is known to hand on
  have hunit : ∀ finalL, compile options n [.sources library] = .ok finalL →
      finalL.result.unit = priorResult options library := fun finalL hfinal =>
    unit_library hsep (succeeded_of_compile hsep.distinct_library hfinal)
  refine ⟨?_, ?_⟩
  · rw [compile_ok_iff hsep.distinct_joint hn]
    refine Iff.trans ?_ (goesThrough_jointTable_iff hsep hmarkers).symm
    refine ⟨?_, ?_⟩
    · intro h
      obtain ⟨finalL, hfinalL, finalA, hfinalA⟩ := h
      rw [hunit finalL hfinalL] at hfinalA
      exact ⟨(succeeded_of_compile hsep.distinct_library hfinalL).goesThrough,
        (succeeded_of_compile hsep.distinct_application hfinalA).goesThrough⟩
    · intro h
      obtain ⟨hlibrary, happlication⟩ := h
      obtain ⟨finalL, hfinalL⟩ := (compile_ok_iff hsep.distinct_library hn).mpr hlibrary
      refine ⟨finalL, hfinalL, ?_⟩
      rw [hunit finalL hfinalL]
      exact (compile_ok_iff hsep.distinct_application hn).mpr happlication
  · intro finalL finalA finalJ hfinalL hfinalA hfinalJ
    rw [hunit finalL hfinalL] at hfinalA
    have hlibrary := succeeded_of_compile hsep.distinct_library hfinalL
    have happlication := succeeded_of_compile hsep.distinct_application hfinalA
    have hjoint := succeeded_of_compile hsep.distinct_joint hfinalJ
    have hfiles := mem_files_joint_iff hsep hmarkers hlibrary happlication hjoint
    refine ⟨hfiles, fun hmerge r hr hannotated => ?_⟩
    have hsource : r ∈ sourceDeclarations
        [.dependency (priorResult options library), .sources application] := by
      rw [← localDeclarations_loadedTable]
      show r ∈ (applicationTable options library application).localDeclarations
      rw [localDeclarations_applicationTable]
      exact hr
    obtain ⟨file, _, hmem, hid, _⟩ :=
      happlication.exists_file_of_request hmerge hsource hannotated
    exact ⟨file, hid, (hfiles file).mpr (Or.inr hmem), hmem⟩

/-- The sample can be compiled either way. -/
theorem sample_compiles_either_way :
    ∃ finalL finalA finalJ, compile {} 4 [.sources Sample.library] = .ok finalL ∧
      compile {} 4 [.dependency finalL.result.unit, .sources Sample.application] = .ok finalA ∧
      compile {} 4 [.sources Sample.library, .sources Sample.application] = .ok finalJ ∧
      ∀ file, file ∈ finalJ.workspace.output.files ↔
        file ∈ finalL.workspace.output.files ∨ file ∈ finalA.workspace.output.files := by
  have hsep : Separable Sample.library Sample.application := by
    constructor <;> decide
  have hmarkers : NoMarkerOrigins
      (Sample.library.declarations ++ Sample.application.declarations) := by
    unfold NoMarkerOrigins
    decide
  obtain ⟨hiff, hfiles⟩ :=
    @separate_compilation_agrees {} _ _ 4 (Nat.le_refl 4) hsep hmarkers
  obtain ⟨finalJ, hfinalJ⟩ := Sample.compiles
  obtain ⟨finalL, hfinalL, finalA, hfinalA⟩ := hiff.mpr ⟨finalJ, hfinalJ⟩
  exact ⟨finalL, finalA, finalJ, hfinalL, hfinalA, hfinalJ,
    (hfiles finalL finalA finalJ hfinalL hfinalA hfinalJ).1⟩

end Session

/-! ## Why lookups must not stand for markers

An application declares a custom annotation, and a lookup by hand that names the marker of the
annotation as its origin. Its merge request excludes the marker. -/

namespace Sample

def custom : Declaration :=
  { Declaration.topLevel .annotationClass "com.app" "Custom" with
    annotations := [{ type := contributingAnnotation }] }

def handwritten : Declaration :=
  { Declaration.topLevel .interface lookupNamespace "Handwritten" with
    annotations := [forScope contributionScope], origin := some (markerName custom.name) }

def selective : Declaration :=
  { component with
    annotations := [{
      type := mergeComponent
      arguments := (forScope mergeComponent).arguments ++
        [{ name := some excludeParameter, value := .types [markerName custom.name] }] }] }

def customizing : CompilationUnit :=
  { files := [{ id := ⟨"AppComponent.kt"⟩
                declarations := [custom, handwritten, selective] }] }

/-- The tables that the joint session and the separate one over the application start from. -/
def starts : List SymbolTable :=
  [Session.jointTable library customizing, Session.applicationTable {} library customizing]

theorem separable_customizing : Session.Separable library customizing := by
  constructor <;> decide

theorem library_compiles : ∃ final, Session.compile {} 4 [.sources library] = .ok final := by
  have hlibrary : Session.Straightforward {} (Session.loadedTable [.sources library]) := by
    decide
  exact (Session.compile_ok_iff separable_customizing.distinct_library (Nat.le_refl 4)).mpr
    hlibrary.goesThrough

theorem straightforward_of_starts : ∀ start ∈ starts, Session.Straightforward {} start := by
  decide

/-- In both sessions the aggregate extends the handwritten lookup if the merge selects it. -/
theorem exists_aggregate_of_starts {start : SymbolTable} (hstart : start ∈ starts)
    {final : Session.State} (h : Session.Succeeded {} start final) :
    ∃ aggregate, .generated aggregate ∈ final.workspace.output.files ∧
      aggregate.name = selective.aggregateName ∧
      (handwritten.name ∈ aggregate.supertypes ↔ Merge.selects (Session.mergeTable {} start)
        appScope [markerName custom.name] handwritten = true) := by
  have hreads : ∀ start ∈ starts, selective ∈ Session.requests {} start ∧
      Scope.resolve start selective =
        .ok { marker := appScope, source := .argument mergeComponent } ∧
      ((((selective.annotation? mergeComponent).bind
        (MergeRequest.exclusionList? start)).bind (·.asTypes?)).getD []).eraseDups
          = [markerName custom.name] ∧
      start.find? handwritten.name = some handwritten := by decide
  obtain ⟨hrequest, hresolve, hlisted, hfind⟩ := hreads start hstart
  -- both tables read the request alike, so only the selection can differ
  obtain ⟨aggregate, scope, hfile, hname, hscope, hsupertypes⟩ :=
    h.exists_aggregate_of_plain (straightforward_of_starts start hstart).1 hrequest
  rw [hresolve] at hscope
  obtain rfl := Except.ok.inj hscope
  rw [MergeRequest.exclusionsOf_eq_of_list hlisted (List.mergeSort_singleton _)]
    at hsupertypes
  have hfits := Session.wellFormed_append_emitted h.goesThrough.fits
  have hlookup : handwritten ∈ Merge.lookups (Session.mergeTable {} start) :=
    (Merge.mem_lookups_iff (Session.wellFormed_mergeTable hfits)).mpr
      ⟨(Session.mergeTable_extends hfits).find?_mono hfind, by decide, rfl⟩
  refine ⟨aggregate, hfile, hname, ?_⟩
  rw [hsupertypes]
  exact Merge.name_mem_select_iff (Session.wellFormed_mergeTable hfits) hlookup

end Sample

namespace Session

open Sample

/-- The joint session waits for the library, so the marker is there when it merges, and the lookup
is left out. -/
theorem not_selects_joint (hr : Ready (jointTable Sample.library customizing)) :
    Merge.selects (mergeTable {} (jointTable Sample.library customizing)) appScope
      [markerName custom.name] handwritten = false := by
  have hwaits : waits {} (jointTable Sample.library customizing) = true :=
    waits_of_contribution hr (d := greeter) (by decide) (n := contributesTo) (by decide)
      (by decide)
  unfold mergeTable
  rw [hwaits, if_pos rfl]
  decide +kernel

/-- The separate session does not wait, since it contributes nothing, and the marker comes too
late. -/
theorem selects_application
    (hr : Ready (applicationTable {} Sample.library customizing)) :
    Merge.selects (mergeTable {} (applicationTable {} Sample.library customizing)) appScope
      [markerName custom.name] handwritten = true := by
  have hwaits : waits {} (applicationTable {} Sample.library customizing) = false := by
    have hquiet : (∀ d ∈ (applicationTable {} Sample.library customizing).visible,
          d.package ≠ extendNamespace) ∧
        ∀ d ∈ (applicationTable {} Sample.library customizing).localDeclarations,
          ∀ usage ∈ d.annotations, usage.type ∉ Registry.builtin ++ Registry.legacy {} ∧
            usage.type ∉ Registry.fresh
              ((applicationTable {} Sample.library customizing).beginRound []) := by
      decide
    obtain ⟨hunmarked, hunregistered⟩ := hquiet
    rw [Bool.eq_false_iff]
    intro h
    obtain ⟨d, hd, usage, hu, hcontains⟩ := (waits_iff hr).mp h
    rw [Registry.contains_assemble_iff] at hcontains
    rcases List.mem_append.mp hcontains with hcontains | hin
    · rcases List.mem_append.mp hcontains with hcontains | hin
      · exact (hunregistered d hd usage hu).1 (by simpa using hcontains)
      · obtain ⟨m, hm, hregisters⟩ := Registry.mem_marked_iff.mp hin
        exact hunmarked m hm hregisters.package
    · exact (hunregistered d hd usage hu).2 hin
  unfold mergeTable
  rw [hwaits]
  decide +kernel

/-- **The condition on lookups is needed.** Both sessions succeed, and the aggregate of the separate
one extends a lookup that the aggregate of the joint one leaves out. -/
theorem separate_compilation_differs :
    Separable Sample.library customizing ∧
      ∃ finalL finalA finalJ, compile {} 4 [.sources Sample.library] = .ok finalL ∧
        compile {} 4 [.dependency finalL.result.unit, .sources customizing] = .ok finalA ∧
        compile {} 4 [.sources Sample.library, .sources customizing] = .ok finalJ ∧
        ∃ file ∈ finalA.workspace.output.files, file ∉ finalJ.workspace.output.files := by
  have hsep := separable_customizing
  obtain ⟨finalL, hfinalL⟩ := library_compiles
  have hunit := unit_library hsep (succeeded_of_compile hsep.distinct_library hfinalL)
  obtain ⟨finalA, hfinalA⟩ := (compile_ok_iff hsep.distinct_application (Nat.le_refl 4)).mpr
    (straightforward_of_starts _ (List.mem_cons_of_mem _ List.mem_cons_self)).goesThrough
  obtain ⟨finalJ, hfinalJ⟩ := (compile_ok_iff hsep.distinct_joint (Nat.le_refl 4)).mpr
    (straightforward_of_starts _ List.mem_cons_self).goesThrough
  have happlication := succeeded_of_compile hsep.distinct_application hfinalA
  have hjoint := succeeded_of_compile hsep.distinct_joint hfinalJ
  obtain ⟨a, hfileA, hnameA, hselectsA⟩ :=
    exists_aggregate_of_starts (List.mem_cons_of_mem _ List.mem_cons_self) happlication
  obtain ⟨j, hfileJ, hnameJ, hselectsJ⟩ := exists_aggregate_of_starts List.mem_cons_self hjoint
  refine ⟨hsep, finalL, finalA, finalJ, hfinalL, ?_, hfinalJ, _, hfileA, fun hfile => ?_⟩
  · rw [hunit]
    exact hfinalA
  -- both answer the same request, so they would be the same file
  have hsub : ∀ file ∈ finalJ.workspace.output.files, file ∈ finalJ.table.files := by
    rw [hjoint.underway.files]
    exact fun file hf => List.mem_append_right _ hf
  have hsame : SourceFile.generated a = .generated j :=
    SymbolTable.eq_of_id_eq hjoint.underway.wellFormed (hsub _ hfile) (hsub _ hfileJ)
      (congrArg FileId.generated (hnameA.trans hnameJ.symm))
  obtain rfl : a = j := (List.cons.inj (congrArg SourceFile.declarations hsame)).1
  rw [selects_application happlication.ready] at hselectsA
  rw [not_selects_joint hjoint.ready] at hselectsJ
  exact nomatch hselectsJ.mp (hselectsA.mpr rfl)

end Session

end ScopeMerge
