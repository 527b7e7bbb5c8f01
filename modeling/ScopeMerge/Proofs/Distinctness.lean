import ScopeMerge.Proofs.Nesting
import ScopeMerge.Proofs.Plain
import ScopeMerge.Proofs.Waiting

/-!
# When no generated name is used twice

A table refuses a file whose names it already has, but it takes a file that declares
one name several times, and then shows the last declaration of the name wherever the
name is listed. Every generated file but one kind has a single declaration. The answer
to a merge request is the exception: it holds the aggregate and all final components of
the request, and their names are put together from simple names alone. Two subcomponents
of different packages may have the same simple name.

The names of an answer are distinct exactly when subcomponents beside each other differ
in their joined simple names, at every level of the nesting. This is local because a
label has no dots and does not look like the two other things that follow a final
component's name: where two names part, they part in a label.
-/

namespace ScopeMerge

namespace FinalComponents

open Vocabulary

/-! ## The names of a nesting -/

/-- The names that come with one final component. -/
def own (final : Name) : List Name :=
  [final, factoryName final, mergedName final]

theorem mem_own_iff {final n : Name} :
    n ∈ own final ↔ n = final ∨ n = factoryName final ∨ n = mergedName final := by
  simp [own]

/-- The names of the three declarations for a path. -/
def Path.names (parent : Name) (path : Path) : List Name :=
  own (nameAlong parent path.steps)

theorem Path.map_name_implementation (t : SymbolTable) (package : String) (parent : Name)
    (path : Path) : (path.implementation t package parent).map (·.name) = path.names parent := by
  rw [Path.names, ← finalName_nameAlong]
  rfl

namespace Nesting

def names (parent : Name) (nesting : Nesting) : List Name :=
  nesting.paths.flatMap (Path.names parent)

theorem map_name_final (t : SymbolTable) (package : String) (parent : Name) (nesting : Nesting) :
    (nesting.final t package parent).declarations.map (·.name) = nesting.names parent := by
  rw [final, names, List.map_flatMap]
  exact List.flatMap_congr fun path _ => path.map_name_implementation t package parent

/-- The names in one final component come before those beside it. -/
theorem names_node (parent : Name) (step : Descent) (inside beside : Nesting) :
    (node step inside beside).names parent =
      (own (finalName parent step.shape) ++ inside.names (finalName parent step.shape)) ++
        beside.names parent := by
  have hinside : (inside.paths.map (Path.under step)).flatMap (Path.names parent)
      = inside.names (finalName parent step.shape) := by
    rw [List.flatMap_map]
    refine List.flatMap_congr fun path _ => ?_
    simp [Path.names, Path.under, Path.steps]
  rw [names, paths, List.flatMap_cons, List.flatMap_append, hinside, ← List.append_assoc]
  simp [Path.names, Path.steps, names]

theorem finalName_mem_names {nesting : Nesting} (parent : Name) {step : Descent}
    (h : step ∈ nesting.roots) : finalName parent step.shape ∈ nesting.names parent := by
  induction nesting with
  | empty => exact nomatch h
  | node first inside beside _ ihbeside =>
      rw [names_node]
      rcases List.mem_cons.mp h with rfl | h
      · exact List.mem_append_left _ (List.mem_append_left _ List.mem_cons_self)
      · exact List.mem_append_right _ (ihbeside h)

/-- Subcomponents beside each other differ in their joined simple names. -/
def Distinguishable : Nesting → Prop
  | empty => True
  | node step inside beside =>
    step.shape.subcomponent.joinedSimpleName ∉
        beside.roots.map (·.shape.subcomponent.joinedSimpleName) ∧
      inside.Distinguishable ∧ beside.Distinguishable

instance decidableDistinguishable : (nesting : Nesting) → Decidable nesting.Distinguishable
  | empty => inferInstanceAs (Decidable True)
  | node _ inside beside =>
    have := decidableDistinguishable inside
    have := decidableDistinguishable beside
    inferInstanceAs (Decidable (_ ∧ _ ∧ _))

end Nesting

/-! ## Where two names part -/

/-- What may follow a label: nothing, the suffix of a merged interface, or something nested. -/
def Continues (rest : List Char) : Prop :=
  rest = [] ∨ rest = mergedSuffix.toList ∨ rest.head? = some '.'

/-- A name that starts with a label under a parent. -/
def Below (parent : Name) (label : String) (n : Name) : Prop :=
  ∃ rest, n.text.toList = parent.text.toList ++ '.' :: (label.toList ++ rest) ∧ Continues rest

theorem dot_notMem_label (step : Descent) : '.' ∉ step.label.toList := by
  simp [Descent.label, Declaration.joinedSimpleName, finalSuffix]

theorem label_inj {step other : Descent} : step.label = other.label ↔
    step.shape.subcomponent.joinedSimpleName = other.shape.subcomponent.joinedSimpleName := by
  simp [Descent.label, String.append_left_inj]

theorem finalName_toList (parent : Name) (step : Descent) :
    (finalName parent step.shape).text.toList
      = parent.text.toList ++ '.' :: step.label.toList := by
  simp [finalName, Name.child, Descent.label]

/-- Up to the next dot there is the label, or the label and the suffix. -/
theorem takeWhile_label (step : Descent) {rest : List Char} (h : Continues rest) :
    (step.label.toList ++ rest).takeWhile (· ≠ '.') = step.label.toList ∨
      (step.label.toList ++ rest).takeWhile (· ≠ '.')
        = step.label.toList ++ mergedSuffix.toList := by
  have hlabel : ∀ c ∈ step.label.toList, decide (c ≠ '.') = true := fun c hc =>
    decide_eq_true fun heq => dot_notMem_label step (heq ▸ hc)
  rw [List.takeWhile_append_of_pos hlabel]
  rcases h with rfl | rfl | hdot
  · left
    simp
  · right
    rfl
  · left
    cases rest with
    | nil => simp
    | cons c rest =>
        obtain rfl := Option.some.inj hdot
        simp

theorem getLast?_label (step : Descent) : step.label.toList.getLast? = some 'l' := by
  simp [Descent.label, finalSuffix, List.getLast?_append]

theorem getLast?_label_merged (step : Descent) :
    (step.label.toList ++ mergedSuffix.toList).getLast? = some 'd' := by
  simp [mergedSuffix, List.getLast?_append]

/-- A name starts with one label only. -/
theorem label_eq_of_below {parent n : Name} {step other : Descent}
    (h : Below parent step.label n) (h' : Below parent other.label n) :
    step.label = other.label := by
  obtain ⟨rest, hn, hrest⟩ := h
  obtain ⟨rest', hn', hrest'⟩ := h'
  rw [hn, List.append_cancel_left_eq, List.cons.injEq] at hn'
  have hlast := getLast?_label step
  have hlast' := getLast?_label other
  have hmerged := getLast?_label_merged step
  have hmerged' := getLast?_label_merged other
  -- of the four combinations two are ruled out by the last letter
  rcases takeWhile_label step hrest with hs | hs <;>
    rcases takeWhile_label other hrest' with ho | ho <;>
    rw [hn'.2, ho] at hs
  · exact (String.toList_inj.mp hs).symm
  · rw [hs, hlast] at hmerged'
    exact absurd hmerged' (by decide)
  · rw [← hs, hlast'] at hmerged
    exact absurd hmerged (by decide)
  · exact (String.toList_inj.mp (List.append_cancel_right hs)).symm

theorem below_of_mem_own {parent n : Name} {step : Descent}
    (h : n ∈ own (finalName parent step.shape)) : Below parent step.label n := by
  rcases mem_own_iff.mp h with rfl | rfl | rfl
  · exact ⟨[], by rw [finalName_toList, List.append_nil], Or.inl rfl⟩
  · exact ⟨".Factory".toList, by simp [factoryName, Name.child, finalName_toList],
      Or.inr (Or.inr rfl)⟩
  · exact ⟨mergedSuffix.toList, by simp [mergedName, Name.withSuffix, finalName_toList],
      Or.inr (Or.inl rfl)⟩

/-- What is below a final component is below what the final component is below. -/
theorem Below.up {parent n : Name} {step : Descent} {label : String}
    (h : Below (finalName parent step.shape) label n) : Below parent step.label n := by
  obtain ⟨rest, hn, _⟩ := h
  refine ⟨'.' :: (label.toList ++ rest), ?_, Or.inr (Or.inr rfl)⟩
  rw [hn, finalName_toList, List.append_assoc, List.cons_append]

/-- Every name of a nesting starts with the label of a root. -/
theorem exists_root_of_mem_names {nesting : Nesting} {parent n : Name}
    (h : n ∈ nesting.names parent) : ∃ step ∈ nesting.roots, Below parent step.label n := by
  induction nesting generalizing parent with
  | empty => exact nomatch h
  | node step inside beside ihinside ihbeside =>
      rw [Nesting.names_node, List.mem_append, List.mem_append] at h
      rcases h with (h | h) | h
      · exact ⟨step, List.mem_cons_self, below_of_mem_own h⟩
      · obtain ⟨_, _, hbelow⟩ := ihinside h
        exact ⟨step, List.mem_cons_self, hbelow.up⟩
      · obtain ⟨root, hroot, hbelow⟩ := ihbeside h
        exact ⟨root, List.mem_cons_of_mem _ hroot, hbelow⟩

/-- The names of a final component are not used again inside it. -/
theorem not_below_of_mem_own {final n : Name} {step : Descent} (hn : n ∈ own final) :
    ¬ Below final step.label n := by
  intro h
  obtain ⟨rest, heq, hrest⟩ := h
  rcases mem_own_iff.mp hn with rfl | rfl | rfl
  · have hlength := congrArg List.length heq
    simp at hlength
  · -- the factory's simple name would have to be a label
    have hfactory : "Factory".toList = step.label.toList ++ rest := by
      simpa [factoryName, Name.child] using heq
    have hwhole : "Factory".toList.takeWhile (· ≠ '.') = "Factory".toList := by decide
    rcases takeWhile_label step hrest with hs | hs <;> rw [← hfactory, hwhole] at hs
    · have hlast := getLast?_label step
      rw [← hs] at hlast
      exact absurd hlast (by decide)
    · have hlast := getLast?_label_merged step
      rw [← hs] at hlast
      exact absurd hlast (by decide)
  · simp [mergedName, Name.withSuffix, mergedSuffix] at heq

theorem nodup_own (final : Name) : (own final).Nodup := by
  obtain ⟨text⟩ := final
  simp [own, factoryName, mergedName, Name.child, Name.withSuffix, mergedSuffix,
    ← String.toList_inj]

/-- **Names are distinct exactly when siblings are told apart.** -/
theorem nodup_names_iff {nesting : Nesting} {parent : Name} :
    (nesting.names parent).Nodup ↔ nesting.Distinguishable := by
  induction nesting generalizing parent with
  | empty => simp [Nesting.names, Nesting.paths, Nesting.Distinguishable]
  | node step inside beside ihinside ihbeside =>
      rw [Nesting.names_node, List.nodup_append, List.nodup_append, ihinside, ihbeside,
        Nesting.Distinguishable]
      refine ⟨?_, ?_⟩
      · intro h
        obtain ⟨⟨_, hinside, _⟩, hbeside, hapart⟩ := h
        refine ⟨fun hmem => ?_, hinside, hbeside⟩
        -- a sibling with the same label has the same final component
        obtain ⟨other, hother, hsame⟩ := List.mem_map.mp hmem
        have hname : finalName parent step.shape = finalName parent other.shape := by
          unfold finalName
          rw [hsame]
        exact hapart _ (List.mem_append_left _ List.mem_cons_self) _
          (Nesting.finalName_mem_names parent hother) hname
      · intro h
        obtain ⟨hsiblings, hinside, hbeside⟩ := h
        refine ⟨⟨nodup_own _, hinside, ?_⟩, hbeside, ?_⟩
        · rintro n hn _ hm rfl
          obtain ⟨root, _, hbelow⟩ := exists_root_of_mem_names hm
          exact not_below_of_mem_own hn hbelow
        · rintro n hn _ hm rfl
          have hown : Below parent step.label n := by
            rcases List.mem_append.mp hn with hn | hn
            · exact below_of_mem_own hn
            · obtain ⟨_, _, hbelow⟩ := exists_root_of_mem_names hn
              exact hbelow.up
          obtain ⟨root, hroot, hbelow⟩ := exists_root_of_mem_names hm
          exact hsiblings (List.mem_map.mpr
            ⟨root, hroot, label_inj.mp (label_eq_of_below hbelow hown)⟩)

end FinalComponents

/-! ## The names of an answer -/

namespace Merge

open FinalComponents

variable {t : SymbolTable} {d : Declaration} {file : SourceFile} {nesting : Nesting}

/-- What the contributions to a merge request unfold into. -/
def Nests (t : SymbolTable) (d : Declaration) (nesting : Nesting) : Prop :=
  ∃ request, MergeRequest.parse t d = .ok request ∧
    Unfolds t (select t request.scope.marker request.exclusions) nesting

theorem Nests.unique (h : Nests t d nesting) {other : Nesting} (h' : Nests t d other) :
    nesting = other := by
  obtain ⟨request, hrequest, hunfolds⟩ := h
  obtain ⟨request', hrequest', hunfolds'⟩ := h'
  rw [hrequest] at hrequest'
  obtain rfl := Except.ok.inj hrequest'
  exact hunfolds.unique hunfolds'

/-- An answer is the aggregate, followed by the final components of a nesting. -/
theorem exists_nests_of_finalize (h : finalize t d = .ok file) :
    ∃ nesting aggregate, Nests t d nesting ∧ aggregate.name = d.aggregateName ∧
      file = .generated aggregate (nesting.final t d.package d.name).declarations := by
  obtain ⟨request, finals, hrequest, hfinals, rfl⟩ := finalize_eq_ok_iff.mp h
  obtain ⟨nesting, hunfolds, _, rfl⟩ := generate_eq_ok_iff.mp hfinals
  exact ⟨nesting, _, ⟨request, hrequest, hunfolds⟩, name_aggregate hrequest _ _, rfl⟩

/-- The outline of the answer to a request, by what the request unfolds into. -/
def answerOutline (d : Declaration) (nesting : Nesting) : FileId × List Name :=
  (.generated d.aggregateName, d.aggregateName :: nesting.names d.name)

theorem outline_of_finalize (h : finalize t d = .ok file) (hn : Nests t d nesting) :
    file.outline = answerOutline d nesting := by
  obtain ⟨found, aggregate, hfound, hname, rfl⟩ := exists_nests_of_finalize h
  rw [hn.unique hfound]
  unfold SourceFile.outline SourceFile.generated answerOutline
  rw [List.map_cons, hname, Nesting.map_name_final]

theorem getLast?_aggregateName (d : Declaration) :
    d.aggregateName.text.toList.getLast? = some 'd' := by
  unfold Declaration.aggregateName Name.inPackage Vocabulary.mergedSuffix
  split <;> simp [List.getLast?_append, List.getLast?_cons]

/-- Of the names that come with a final component only that of its merged interface can be the
name of an aggregate. -/
theorem aggregateName_mem_names_iff {parent : Name} :
    d.aggregateName ∈ nesting.names parent ↔
      ∃ path ∈ nesting.paths, mergedName (nameAlong parent path.steps) = d.aggregateName := by
  unfold Nesting.names Path.names
  rw [List.mem_flatMap]
  refine exists_congr fun path => and_congr_right fun _ => ?_
  have hlast := getLast?_aggregateName d
  rw [mem_own_iff]
  refine ⟨?_, fun h => Or.inr (Or.inr h.symm)⟩
  rintro (h | h | h)
  · rw [h, ← finalName_nameAlong, finalName_toList, List.getLast?_append, List.getLast?_cons,
      getLast?_label] at hlast
    exact nomatch Option.some.inj hlast
  · rw [h] at hlast
    simp [factoryName, Name.child, List.getLast?_append] at hlast
  · exact h.symm

/-- **The names of an answer are distinct** exactly when siblings are told apart and no merged
interface is named like the aggregate. -/
theorem distinctNames_iff_of_finalize (h : finalize t d = .ok file) (hn : Nests t d nesting) :
    file.DistinctNames ↔ nesting.Distinguishable ∧
      ∀ path ∈ nesting.paths, mergedName (nameAlong d.name path.steps) ≠ d.aggregateName := by
  have hnames : file.declarations.map (·.name) = d.aggregateName :: nesting.names d.name :=
    congrArg Prod.snd (outline_of_finalize h hn)
  unfold SourceFile.DistinctNames
  rw [hnames, List.nodup_cons, nodup_names_iff, aggregateName_mem_names_iff, and_comm]
  simp

/-- A request that unfolds without cycles has an answer. -/
theorem exists_finalize_of_nests (hn : Nests t d nesting) (hac : nesting.Acyclic []) :
    ∃ file, finalize t d = .ok file := by
  obtain ⟨request, hrequest, hunfolds⟩ := hn
  exact ⟨_, finalize_eq_ok_iff.mpr ⟨request, _, hrequest, generate_of_unfolds hunfolds hac, rfl⟩⟩

theorem outlines_of_nests {requests : List Declaration} {nestings : Declaration → Nesting}
    (h : ∀ r ∈ requests, Nests t r (nestings r) ∧ (nestings r).Acyclic []) :
    (Attempt.written (requests.map fun r => Attempt.ofResult (finalize t r))).map
      SourceFile.outline = requests.map fun r => answerOutline r (nestings r) := by
  induction requests with
  | nil => rfl
  | cons r rest ih =>
      obtain ⟨hnests, hac⟩ := h r List.mem_cons_self
      obtain ⟨file, hfile⟩ := exists_finalize_of_nests hnests hac
      rw [List.map_cons, List.map_cons, hfile,
        ← ih fun other hmem => h other (List.mem_cons_of_mem _ hmem),
        ← outline_of_finalize hfile hnests]
      rfl

end Merge

/-! ## The names of a unit -/

namespace SymbolTable

variable {table : SymbolTable}

theorem names_listed (entry : Entry) (h : entry ∈ table.entries) :
    (table.listed entry).map (·.name) = entry.file.declarations.map (·.name) := by
  have hfind : ∀ d ∈ entry.file.declarations,
      (table.find? d.name).map (·.name) = some d.name := by
    intro d hd
    obtain ⟨found, hfound⟩ := exists_find?_of_mem
      (mem_declarations_iff.mpr ⟨entry.file, List.mem_map_of_mem h, hd⟩)
    rw [hfound, Option.map_some, (find?_eq_some hfound).2]
  unfold listed
  rw [List.map_filterMap, List.filterMap_congr hfind]
  exact congrFun List.filterMap_eq_map _

/-- A unit names what its files declare, repeated names included. -/
theorem names_localUnit (table : SymbolTable) :
    table.localUnit.names =
      table.localFiles.flatMap fun file => file.declarations.map (·.name) := by
  unfold CompilationUnit.names localUnit localFiles
  dsimp only
  rw [List.flatMap_map, List.flatMap_map]
  exact List.flatMap_congr fun entry hentry => names_listed entry (List.mem_of_mem_filter hentry)

theorem nodup_names_localUnit_iff (hw : table.WellFormed) :
    table.localUnit.names.Nodup ↔ ∀ file ∈ table.localFiles, file.DistinctNames := by
  rw [names_localUnit]
  refine ⟨fun h => (List.nodup_flatMap.mp h).1, fun h => ?_⟩
  rw [← List.map_flatMap]
  exact SourceFile.nodup_names_flatMap hw.localFiles (fun _ _ => List.Subset.refl _) h

end SymbolTable

namespace Session

open FinalComponents

variable {options : Options} {start : SymbolTable} {final : State}

/-- The unit of a session names nothing twice exactly when no answer does. -/
theorem Succeeded.nodup_names_iff (h : Succeeded options start final) :
    final.result.unit.names.Nodup ↔ ∀ r ∈ requests options start, ∀ nesting,
      Merge.Nests (mergeTable options start) r nesting →
        nesting.Distinguishable ∧
          ∀ path ∈ nesting.paths, mergedName (nameAlong r.name path.steps) ≠ r.aggregateName := by
  have hunit : final.result.unit.names.Nodup ↔
      ∀ file ∈ final.table.localFiles, file.DistinctNames :=
    SymbolTable.nodup_names_localUnit_iff h.underway.wellFormed
  rw [hunit, h.underway.localFiles, h.concluded.files]
  refine ⟨?_, ?_⟩
  · intro hall r hr nesting hn
    obtain ⟨file, hfile, hfinalize⟩ := h.exists_answer hr
    refine (Merge.distinctNames_iff_of_finalize hfinalize hn).mp (hall file ?_)
    exact List.mem_append_right _ (List.mem_append_right _ hfile)
  · intro hall file hfile
    rcases List.mem_append.mp hfile with hfile | hfile
    · exact h.ready.distinct file hfile
    rcases List.mem_append.mp hfile with hfile | hfile
    · exact emitted_distinct hfile
    · obtain ⟨r, hr, hfinalize⟩ := exists_request_of_merged hfile
      obtain ⟨nesting, _, hn, _, _⟩ := Merge.exists_nests_of_finalize hfinalize
      exact (Merge.distinctNames_iff_of_finalize hfinalize hn).mpr (hall r hr nesting hn)

/-- An answer holds the declarations of every path below its request. -/
theorem Succeeded.exists_file_of_path (h : Succeeded options start final) {r : Declaration}
    (hr : r ∈ requests options start) {nesting : Nesting}
    (hn : Merge.Nests (mergeTable options start) r nesting) {path : Path}
    (hpath : path ∈ nesting.paths) :
    ∃ file ∈ final.workspace.output.files,
      ∀ d ∈ path.implementation (mergeTable options start) r.package r.name,
        d ∈ file.declarations := by
  obtain ⟨file, hfile, hfinalize⟩ := h.exists_answer hr
  obtain ⟨found, _, hfound, _, rfl⟩ := Merge.exists_nests_of_finalize hfinalize
  obtain rfl := hn.unique hfound
  have hwritten := List.mem_append_right (emitted options start) hfile
  rw [← h.concluded.files] at hwritten
  refine ⟨_, hwritten, fun d hd => List.mem_cons_of_mem _ ?_⟩
  exact List.mem_flatMap.mpr ⟨path, hpath, hd⟩

/-- A compilation goes through if its sources and requests can be read, no subcomponent is below
itself, and nothing is taken twice. -/
theorem goesThrough_of_nests (nestings : Declaration → Nesting)
    (hemits : Attempt.AllSucceed (emissions options start))
    (hnests : ∀ r ∈ requests options start,
      Merge.Nests (mergeTable options start) r (nestings r) ∧ (nestings r).Acyclic [])
    (hapart : (start.files.map SourceFile.outline ++ ((emitted options start).map
      SourceFile.outline ++ (requests options start).map fun r =>
        Merge.answerOutline r (nestings r))).Pairwise
          fun f g => f.1 ≠ g.1 ∧ ∀ n ∈ f.2, ∀ m ∈ g.2, n ≠ m) :
    GoesThrough options start where
  emits := hemits
  merges := by
    intro answer hanswer
    obtain ⟨r, hr, rfl⟩ := List.mem_map.mp hanswer
    obtain ⟨hn, hac⟩ := hnests r hr
    obtain ⟨file, hfile⟩ := Merge.exists_finalize_of_nests hn hac
    rw [hfile]
    rfl
  fits := by
    have hmerged : (merged options start).map SourceFile.outline =
        (requests options start).map fun r => Merge.answerOutline r (nestings r) :=
      Merge.outlines_of_nests hnests
    unfold SymbolTable.WellFormed
    rw [SymbolTable.files_append, SourceFile.pairwise_apart_iff, List.map_append,
      List.map_append, hmerged]
    exact hapart

/-- **When the output names nothing twice.** This is so exactly when the subcomponents beside each
other below a merge request differ in their joined simple names, and no merged interface is named
like the aggregate of its request. Then every generated file is in the output as it was generated,
and every subcomponent on every path has its own three declarations there. -/
theorem names_occur_once_iff {inputs : List Input} {n : Nat}
    (hdistinct : ∀ file ∈ inputFiles inputs, file.DistinctNames)
    (h : compile options n inputs = .ok final) :
    (final.result.unit.names.Nodup ↔
        ∀ r ∈ requests options (loadedTable inputs), ∀ nesting,
          Merge.Nests (mergeTable options (loadedTable inputs)) r nesting →
            nesting.Distinguishable ∧ ∀ path ∈ nesting.paths,
              mergedName (nameAlong r.name path.steps) ≠ r.aggregateName) ∧
      (final.result.unit.names.Nodup →
        (∀ file ∈ final.workspace.output.files, file ∈ final.result.unit.files) ∧
          ∀ r ∈ requests options (loadedTable inputs), ∀ nesting,
            Merge.Nests (mergeTable options (loadedTable inputs)) r nesting →
              ∀ path ∈ nesting.paths, ∃ file ∈ final.result.unit.files,
                ∀ d ∈ path.implementation (mergeTable options (loadedTable inputs)) r.package
                    r.name,
                  d ∈ file.declarations) := by
  have hs := succeeded_of_compile hdistinct h
  refine ⟨hs.nodup_names_iff, fun hnodup => ?_⟩
  -- without a repeated name the files are handed on as they are
  have hunit : final.result.unit = { files := final.table.localFiles } :=
    SymbolTable.localUnit_of_distinct hs.underway.wellFormed
      ((SymbolTable.nodup_names_localUnit_iff hs.underway.wellFormed).mp hnodup)
  have hkept : ∀ file ∈ final.workspace.output.files, file ∈ final.result.unit.files := by
    intro file hfile
    rw [hunit, hs.underway.localFiles]
    exact List.mem_append_right _ hfile
  refine ⟨hkept, fun r hr nesting hn path hpath => ?_⟩
  obtain ⟨file, hfile, hall⟩ := hs.exists_file_of_path hr hn hpath
  exact ⟨file, hkept file hfile, hall⟩

end Session

/-! ## Samples

The chain of two subcomponents, and a pair of twins: subcomponents of different packages and of one
simple name, contributed to one scope. -/

namespace Sample

open FinalComponents

/-- What a sample with one merge request comes to before the request is answered. -/
def Begins (inputs : List Session.Input) (lookups : List Declaration) (nesting : Nesting) : Prop :=
  (∀ file ∈ Session.inputFiles inputs, file.DistinctNames) ∧
    (Session.emitted {} (Session.loadedTable inputs) = lookups.map (SourceFile.generated ·) ∧
      Attempt.AllSucceed (Session.emissions {} (Session.loadedTable inputs))) ∧
    Session.requests {} (Session.loadedTable inputs) = [component] ∧
    ((Session.loadedTable inputs).files.map SourceFile.outline ++
      ((lookups.map (SourceFile.generated ·)).map SourceFile.outline ++
        [Merge.answerOutline component nesting])).Pairwise
          fun f g => f.1 ≠ g.1 ∧ ∀ n ∈ f.2, ∀ m ∈ g.2, n ≠ m

instance (inputs : List Session.Input) (lookups : List Declaration) (nesting : Nesting) :
    Decidable (Begins inputs lookups nesting) :=
  inferInstanceAs (Decidable (_ ∧ _ ∧ _ ∧ _))

/-- The application asks for everything in its scope. -/
def Asks (t : SymbolTable) : Prop :=
  MergeRequest.Readable t component ∧
    Scope.resolve t component =
      .ok { marker := appScope, source := .argument Vocabulary.mergeComponent } ∧
    (((component.annotation? Vocabulary.mergeComponent).bind
      (MergeRequest.exclusionList? t)).bind (·.asTypes?)).getD [] = []

instance (t : SymbolTable) : Decidable (Asks t) :=
  inferInstanceAs (Decidable (_ ∧ _ ∧ _))

theorem Asks.nests {t : SymbolTable} (h : Asks t) {nesting : Nesting}
    (hunfolds : Unfolds t (Merge.select t appScope []) nesting) :
    Merge.Nests t component nesting := by
  obtain ⟨hreadable, hscope, hlist⟩ := h
  obtain ⟨request, hrequest⟩ := MergeRequest.exists_parse_iff.mpr hreadable
  obtain ⟨hresolve, hexclusions⟩ := MergeRequest.parse_ok hrequest
  rw [hscope] at hresolve
  rw [MergeRequest.exclusionsOf_eq_of_list (by rw [hlist]; rfl) List.mergeSort_nil] at hexclusions
  refine ⟨request, hrequest, ?_⟩
  rw [← Except.ok.inj hresolve, hexclusions]
  exact hunfolds

namespace Begins

variable {inputs : List Session.Input} {lookups : List Declaration} {nesting : Nesting}

/-- A contributed subcomponent makes the merge wait, so it sees the lookups. -/
theorem mergeTable_eq (h : Begins inputs lookups nesting) {d : Declaration}
    (hd : d ∈ Session.sourceDeclarations inputs)
    (hannotated : d.isAnnotatedWith Vocabulary.contributesSubcomponent = true) :
    Session.mergeTable {} (Session.loadedTable inputs)
      = (Session.loadedTable inputs).append (lookups.map (SourceFile.generated ·)) true := by
  obtain ⟨hdistinct, ⟨hemitted, _⟩, _, hapart⟩ := h
  have hw : (Session.loadedTable inputs).WellFormed :=
    SourceFile.pairwise_apart_iff.mpr (List.pairwise_append.mp hapart).1
  rw [← Session.localDeclarations_loadedTable] at hd
  have hwaits : Session.waits {} (Session.loadedTable inputs) = true :=
    Session.waits_of_contribution (Session.ready_loadedTable hw hdistinct) hd (by decide) hannotated
  unfold Session.mergeTable
  rw [hwaits, if_pos rfl, hemitted]

theorem compiles (h : Begins inputs lookups nesting)
    (hn : Merge.Nests (Session.mergeTable {} (Session.loadedTable inputs)) component nesting)
    (hac : nesting.Acyclic []) : ∃ final, Session.compile {} 4 inputs = .ok final := by
  obtain ⟨hdistinct, ⟨hemitted, hemits⟩, hrequests, hapart⟩ := h
  refine (Session.compile_ok_iff hdistinct (Nat.le_refl 4)).mpr
    (Session.goesThrough_of_nests (fun _ => nesting) hemits ?_ ?_)
  · intro r hr
    rw [hrequests, List.mem_singleton] at hr
    rw [hr]
    exact ⟨hn, hac⟩
  · rw [hemitted, hrequests]
    exact hapart

theorem component_mem (h : Begins inputs lookups nesting) :
    component ∈ Session.requests {} (Session.loadedTable inputs) := by
  rw [h.2.2.1]
  exact List.mem_singleton_self _

end Begins

theorem begins_chain :
    Begins chain [detailLookup, loginLookup] chainNesting ∧ Asks chainTable := by
  decide +kernel

theorem nests_chain :
    Merge.Nests (Session.mergeTable {} (Session.loadedTable chain)) component chainNesting := by
  rw [begins_chain.1.mergeTable_eq (d := detail) List.mem_cons_self (by decide)]
  refine begins_chain.2.nests ?_
  rw [select_chain.1]
  exact unfolds_chain

end Sample

namespace Session

/-- In the chain every name occurs once. -/
theorem chain_occurs_once : ∃ final, compile {} 4 Sample.chain = .ok final ∧
    final.result.unit.names.Nodup := by
  obtain ⟨hbegins, _⟩ := Sample.begins_chain
  obtain ⟨final, hfinal⟩ := hbegins.compiles Sample.nests_chain Sample.acyclic_chain
  refine ⟨final, hfinal, (names_occur_once_iff hbegins.1 hfinal).1.mpr ?_⟩
  intro r hr nesting hn
  rw [hbegins.2.2.1, List.mem_singleton] at hr
  subst hr
  rw [hn.unique Sample.nests_chain]
  decide

end Session

namespace Sample

open FinalComponents

/-- A subcomponent of one package. -/
def first : Declaration := subcomponent "com.first" "Login" ⟨"com.first.Scope"⟩

/-- One of another package, with the same simple name. -/
def second : Declaration := subcomponent "com.second" "Login" ⟨"com.second.Scope"⟩

/-- Both, with the application that they are contributed to. -/
def twins : List Session.Input :=
  [.sources { files :=
      [{ id := ⟨"First.kt"⟩, declarations := [first, factoryOf first appScope] },
        { id := ⟨"Second.kt"⟩, declarations := [second, factoryOf second appScope] }] },
    .sources application]

def firstLookup : Declaration := lookupOf "ComFirstLoginFactory" (factoryOf first appScope) appScope

def secondLookup : Declaration :=
  lookupOf "ComSecondLoginFactory" (factoryOf second appScope) appScope

/-- The table that the application is merged from. -/
def twinTable : SymbolTable :=
  (Session.loadedTable twins).append [.generated firstLookup, .generated secondLookup] true

/-- What the application unfolds into. -/
def twinNesting : Nesting :=
  .node ⟨firstLookup, shapeOn first appScope ⟨"com.first.Scope"⟩⟩ .empty
    (.node ⟨secondLookup, shapeOn second appScope ⟨"com.second.Scope"⟩⟩ .empty .empty)

theorem begins_twins :
    Begins twins [firstLookup, secondLookup] twinNesting ∧ Asks twinTable ∧
      Offers twinTable "ComFirstLoginFactory" first appScope ⟨"com.first.Scope"⟩ ∧
      Offers twinTable "ComSecondLoginFactory" second appScope ⟨"com.second.Scope"⟩ := by
  decide +kernel

theorem lookups_twins : Merge.lookups twinTable = [firstLookup, secondLookup] :=
  Merge.lookups_append_loadedTable (by decide)

/-- The application selects both, and they select nothing. -/
theorem select_twins : Merge.select twinTable appScope [] = [firstLookup, secondLookup] ∧
    Merge.select twinTable ⟨"com.first.Scope"⟩ [] = [] ∧
      Merge.select twinTable ⟨"com.second.Scope"⟩ [] = [] := by
  have hb : twinTable.SeesBuiltins := (Session.seesBuiltins_loadedTable twins).append _ _
  have hfirst : ∀ marker,
      Merge.selects twinTable marker [] firstLookup = decide (appScope = marker) :=
    begins_twins.2.2.1.selects_eq hb
  have hsecond : ∀ marker,
      Merge.selects twinTable marker [] secondLookup = decide (appScope = marker) :=
    begins_twins.2.2.2.selects_eq hb
  have hne : appScope ≠ ⟨"com.first.Scope"⟩ ∧ appScope ≠ ⟨"com.second.Scope"⟩ := by decide
  unfold Merge.select
  rw [lookups_twins]
  simp [hfirst, hsecond, hne.1, hne.2]

theorem nests_twins :
    Merge.Nests (Session.mergeTable {} (Session.loadedTable twins)) component twinNesting := by
  obtain ⟨hbegins, hasks, hfirst, hsecond⟩ := begins_twins
  obtain ⟨hboth, hnone, hnone'⟩ := select_twins
  rw [hbegins.mergeTable_eq (d := first) List.mem_cons_self (by decide)]
  refine hasks.nests ?_
  rw [hboth]
  refine .subcomponent (isSubcomponentLookup_lookupOf _ _ _) hfirst.shapeOf_eq ?_
    (.subcomponent (isSubcomponentLookup_lookupOf _ _ _) hsecond.shapeOf_eq ?_ .nil)
  · show Unfolds twinTable (Merge.select twinTable ⟨"com.first.Scope"⟩ []) .empty
    rw [hnone]
    exact .nil
  · show Unfolds twinTable (Merge.select twinTable ⟨"com.second.Scope"⟩ []) .empty
    rw [hnone']
    exact .nil

theorem twins_compile : ∃ final, Session.compile {} 4 twins = .ok final := by
  have hacyclic : twinNesting.Acyclic [] := by simp [twinNesting, Nesting.Acyclic]
  exact begins_twins.1.compiles nests_twins hacyclic

end Sample

namespace Session

/-- Two subcomponents of one simple name share their generated names, and the compilation succeeds
all the same. -/
theorem twins_share_names : ∃ final, compile {} 4 Sample.twins = .ok final ∧
    ¬ final.result.unit.names.Nodup := by
  obtain ⟨hbegins, _⟩ := Sample.begins_twins
  obtain ⟨final, hfinal⟩ := Sample.twins_compile
  refine ⟨final, hfinal, fun hnodup => ?_⟩
  have hs := succeeded_of_compile hbegins.1 hfinal
  obtain ⟨hdistinguishable, _⟩ :=
    hs.nodup_names_iff.mp hnodup _ hbegins.component_mem _ Sample.nests_twins
  have hsame : Sample.second.joinedSimpleName = Sample.first.joinedSimpleName := by decide
  exact hdistinguishable.1 (List.mem_map.mpr ⟨_, List.mem_cons_self, hsame⟩)

end Session

end ScopeMerge
