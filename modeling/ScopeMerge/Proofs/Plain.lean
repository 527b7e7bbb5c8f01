import ScopeMerge.Proofs.Outcome

/-!
# Compilations without subcomponents

What can go wrong in a merge has mostly to do with subcomponents: their shape, their
factories, the cycles they form. Where no lookup stands for one, every merge request
that can be read is answered, and the answer is a single interface. So whether such
a compilation goes through can be seen before any merge: the right-hand side of
`goesThrough_iff_of_plain` does not mention one.
-/

namespace ScopeMerge

open Vocabulary Attempt

/-! ## What tells files apart -/

namespace SourceFile

/-- The identity of a file and the names it declares. -/
def outline (file : SourceFile) : FileId × List Name :=
  (file.id, file.declarations.map (·.name))

theorem pairwise_apart_iff {fs : List SourceFile} :
    fs.Pairwise Apart ↔
      (fs.map outline).Pairwise fun f g => f.1 ≠ g.1 ∧ ∀ n ∈ f.2, ∀ m ∈ g.2, n ≠ m := by
  rw [List.pairwise_map]
  refine List.Pairwise.iff fun f g => ?_
  unfold Apart outline
  simp

/-- Whether files fit into one table depends on their outlines only. -/
theorem pairwise_apart_congr {fs gs : List SourceFile} (h : fs.map outline = gs.map outline) :
    fs.Pairwise Apart ↔ gs.Pairwise Apart := by
  rw [pairwise_apart_iff, pairwise_apart_iff, h]

end SourceFile

variable {t t' : SymbolTable} {d : Declaration}

/-! ## Answers -/

namespace MergeRequest

/-- A request has a scope, and it extends its aggregate if it has to. -/
def Readable (t : SymbolTable) (d : Declaration) : Prop :=
  (Scope.resolve t d).isOk = true ∧ (!d.isAnnotatedWith component || extendsAggregate d) = true

instance : Decidable (Readable t d) :=
  inferInstanceAs (Decidable (_ ∧ _))

theorem exists_parse_iff : (∃ request, parse t d = .ok request) ↔ Readable t d := by
  simp only [parse, Checking.bind_eq_ok, Checking.pure_eq_ok, Checking.refuseUnless_eq_ok]
  unfold Readable
  cases Scope.resolve t d <;> simp [Except.isOk, Except.toBool]

theorem readable_congr (h : SameReading t t' d) : Readable t d ↔ Readable t' d := by
  rw [← exists_parse_iff, ← exists_parse_iff, parse_congr h]

end MergeRequest

theorem FinalComponents.generate_of_plain {package : String} {lineage : List Name} {parent : Name}
    {contributions : List Declaration}
    (h : ∀ lookup ∈ contributions, lookup.isSubcomponentLookup = false) :
    generate t package lineage parent contributions = .ok {} := by
  induction contributions with
  | nil => rw [generate]
  | cons lookup rest ih =>
      rw [generate_cons_of_other (h lookup List.mem_cons_self)]
      exact ih fun other hmem => h other (List.mem_cons_of_mem _ hmem)

namespace Merge

/-- A table without subcomponents to merge. -/
def Plain (t : SymbolTable) : Prop :=
  ∀ d ∈ t.declarations, d.isSubcomponentLookup = false

/-- The answer to a request that nothing contributes to, up to its origin. -/
def emptyAnswer (d : Declaration) : SourceFile :=
  .generated (Declaration.topLevel .interface d.package d.aggregateName.simpleName)

/-- **Without subcomponents a request that can be read is answered by one interface.** -/
theorem finalize_of_plain (hplain : Plain t) {request : MergeRequest}
    (h : MergeRequest.parse t d = .ok request) :
    finalize t d = .ok (.generated
      (aggregate request (select t request.scope.marker request.exclusions) [])) :=
  finalize_eq_ok_iff.mpr ⟨request, {}, h,
    FinalComponents.generate_of_plain fun _ hd => hplain _ (mem_declarations_of_select hd), rfl⟩

theorem outline_of_parse {request : MergeRequest} (h : MergeRequest.parse t d = .ok request)
    (contributions : List Declaration) (factories : List Name) :
    (SourceFile.generated (aggregate request contributions factories)).outline
      = (emptyAnswer d).outline := by
  simp only [MergeRequest.parse, Checking.bind_eq_ok, Checking.pure_eq_ok] at h
  obtain ⟨_, _, _, _, rfl⟩ := h
  rfl

theorem outlines_of_plain (hplain : Plain t) {requests : List Declaration}
    (h : ∀ r ∈ requests, MergeRequest.Readable t r) :
    (written (requests.map fun r => ofResult (finalize t r))).map SourceFile.outline
      = (requests.map emptyAnswer).map SourceFile.outline := by
  induction requests with
  | nil => rfl
  | cons r rest ih =>
      obtain ⟨request, hrequest⟩ := MergeRequest.exists_parse_iff.mpr (h r List.mem_cons_self)
      have hfile := ofResult_eq_some_iff.mpr ⟨_, finalize_of_plain hplain hrequest, rfl⟩
      rw [List.map_cons, hfile, List.map_cons, List.map_cons,
        ← ih fun other hmem => h other (List.mem_cons_of_mem _ hmem),
        ← outline_of_parse hrequest _ []]
      rfl

end Merge

/-! ## Compilations -/

namespace Session

variable {options : Options} {start : SymbolTable}

theorem plain_mergeTable (hplain : ∀ file ∈ start.files ++ emitted options start,
    ∀ d ∈ file.declarations, d.isSubcomponentLookup = false) :
    Merge.Plain (mergeTable options start) := by
  intro d hd
  obtain ⟨file, hfile, hd⟩ := SymbolTable.mem_declarations_iff.mp hd
  refine hplain file ?_ d hd
  rw [files_mergeTable] at hfile
  split at hfile
  · exact hfile
  · exact List.mem_append_left _ (by simpa using hfile)

/-- Whether everything fits can be seen before any merge. -/
theorem fits_iff_of_plain (hplain : Merge.Plain (mergeTable options start))
    (hreads : ∀ r ∈ requests options start,
      MergeRequest.Readable (mergeTable options start) r) :
    (start.append (emitted options start ++ merged options start) true).WellFormed ↔
      (start.files ++ emitted options start ++
        (requests options start).map Merge.emptyAnswer).Pairwise SourceFile.Apart := by
  unfold SymbolTable.WellFormed
  rw [SymbolTable.files_append, ← List.append_assoc]
  refine SourceFile.pairwise_apart_congr ?_
  simp only [List.map_append]
  exact congrArg _ (Merge.outlines_of_plain hplain hreads)

/-- And whether a request can be read, before anything is emitted. -/
theorem reads_iff (hw : (start.append (emitted options start) true).WellFormed) :
    (∀ r ∈ requests options start, MergeRequest.Readable start r) ↔
      ∀ r ∈ requests options start, MergeRequest.Readable (mergeTable options start) r :=
  forall₂_congr fun r _ => MergeRequest.readable_congr ((mergeTable_extends hw).sameReading r)

/-- **Without subcomponents a compilation goes through exactly when every source and every merge
request can be read** and no identity and no name is taken twice. -/
theorem goesThrough_iff_of_plain (hplain : ∀ file ∈ start.files ++ emitted options start,
    ∀ d ∈ file.declarations, d.isSubcomponentLookup = false) :
    GoesThrough options start ↔
      AllSucceed (emissions options start) ∧
        (∀ r ∈ requests options start, MergeRequest.Readable start r) ∧
          (start.files ++ emitted options start ++
            (requests options start).map Merge.emptyAnswer).Pairwise SourceFile.Apart := by
  have hmerge := plain_mergeTable hplain
  refine ⟨?_, ?_⟩
  · intro hg
    -- an answer shows that its request could be read
    have hreads : ∀ r ∈ requests options start,
        MergeRequest.Readable (mergeTable options start) r := by
      intro r hr
      obtain ⟨files, hfiles⟩ := Option.isSome_iff_exists.mp
        (hg.merges _ (List.mem_map_of_mem hr))
      obtain ⟨file, hfile, _⟩ := ofResult_eq_some_iff.mp hfiles
      obtain ⟨request, _, hrequest, _⟩ := Merge.finalize_eq_ok_iff.mp hfile
      exact MergeRequest.exists_parse_iff.mp ⟨request, hrequest⟩
    exact ⟨hg.emits, (reads_iff (wellFormed_append_emitted hg.fits)).mpr hreads,
      (fits_iff_of_plain hmerge hreads).mp hg.fits⟩
  · intro h
    obtain ⟨hemits, hreads, hfits⟩ := h
    have hbase : (start.append (emitted options start) true).WellFormed := by
      unfold SymbolTable.WellFormed
      rw [SymbolTable.files_append]
      exact (List.pairwise_append.mp hfits).1
    rw [reads_iff hbase] at hreads
    refine ⟨hemits, ?_, (fits_iff_of_plain hmerge hreads).mpr hfits⟩
    -- and a request that can be read has an answer
    intro answer hanswer
    obtain ⟨r, hr, rfl⟩ := List.mem_map.mp hanswer
    obtain ⟨request, hrequest⟩ := MergeRequest.exists_parse_iff.mpr (hreads r hr)
    rw [ofResult_eq_some_iff.mpr ⟨_, Merge.finalize_of_plain hmerge hrequest, rfl⟩]
    rfl

/-- No subcomponent takes part in a compilation, and everything can be read and fits. -/
def Straightforward (options : Options) (start : SymbolTable) : Prop :=
  (∀ file ∈ start.files ++ emitted options start,
      ∀ d ∈ file.declarations, d.isSubcomponentLookup = false) ∧
    AllSucceed (emissions options start) ∧
    (∀ r ∈ requests options start, MergeRequest.Readable start r) ∧
    (start.files ++ emitted options start ++
      (requests options start).map Merge.emptyAnswer).Pairwise SourceFile.Apart

instance (options : Options) (start : SymbolTable) : Decidable (Straightforward options start) :=
  inferInstanceAs (Decidable (_ ∧ _ ∧ _ ∧ _))

theorem Straightforward.goesThrough (h : Straightforward options start) :
    GoesThrough options start :=
  (goesThrough_iff_of_plain h.1).mpr h.2

/-- **Without subcomponents an aggregate extends the lookups that its request selects**, and
nothing else. -/
theorem Succeeded.exists_aggregate_of_plain {final : State} (h : Succeeded options start final)
    (hplain : ∀ file ∈ start.files ++ emitted options start,
      ∀ d ∈ file.declarations, d.isSubcomponentLookup = false)
    {r : Declaration} (hr : r ∈ requests options start) :
    ∃ aggregate scope, .generated aggregate ∈ final.workspace.output.files ∧
      aggregate.name = r.aggregateName ∧ Scope.resolve start r = .ok scope ∧
      aggregate.supertypes = (Merge.select (mergeTable options start) scope.marker
        (MergeRequest.exclusionsOf start r)).map (·.name) := by
  have hextends := mergeTable_extends (wellFormed_append_emitted h.goesThrough.fits)
  have hreading := hextends.sameReading r
  obtain ⟨file, hfile, hfinalize⟩ := h.exists_answer hr
  obtain ⟨request, _, hrequest, _⟩ := Merge.finalize_eq_ok_iff.mp hfinalize
  rw [Merge.finalize_of_plain (plain_mergeTable hplain) hrequest] at hfinalize
  obtain rfl := Except.ok.inj hfinalize
  obtain ⟨hscope, hexclusions⟩ := MergeRequest.parse_ok hrequest
  rw [← Scope.resolve_congr hreading] at hscope
  rw [← MergeRequest.exclusionsOf_congr hreading] at hexclusions
  have hmem := List.mem_append_right (emitted options start) hfile
  rw [← h.concluded.files] at hmem
  refine ⟨_, request.scope, hmem, Merge.name_aggregate hrequest _ _, hscope, ?_⟩
  rw [← hexclusions]
  exact List.append_nil _

end Session

theorem Sample.straightforward :
    Session.Straightforward {} (Session.loadedTable Sample.inputs) := by
  decide

theorem Sample.compiles : ∃ final, Session.compile {} 4 Sample.inputs = .ok final :=
  (Session.compile_ok_iff Sample.distinct (Nat.le_refl 4)).mpr Sample.straightforward.goesThrough

end ScopeMerge
