import ScopeMerge.Proofs.Correspondence
import ScopeMerge.Proofs.History

/-!
# When two generated files have the same identity

A generated file is identified by the name of its first declaration, a namespace
and a simple name in it. Lookups and markers have a namespace each, and an
aggregate is in the package of its request, so what remains to be told apart are
the simple names. There the origin of a lookup has lost its dots: `flatten` is
not injective, and two interfaces like `com.app.Foo` and `com.AppFoo` have one
lookup name between them.

`generatedNames` lists the names of everything the sources contribute and
request. If all of it is sound, a compilation complains about a file identity
exactly when this list repeats itself (`clash_iff_repeated_name`). The induction
is over the rounds that a compilation reaches: a round that goes wrong although
every attempt succeeds has met an identity twice, and then so does the list.
-/

namespace ScopeMerge

open Vocabulary Attempt

/-! ## Names -/

namespace Name

theorem toList_inPackage {package simple : String} (h : package ≠ "") :
    (inPackage package simple).text.toList = package.toList ++ '.' :: simple.toList := by
  unfold inPackage
  rw [if_neg h]
  simp

theorem inPackage_right_inj {package s t : String} :
    inPackage package s = inPackage package t ↔ s = t := by
  refine ⟨?_, fun h => by rw [h]⟩
  intro h
  by_cases hp : package = ""
  · unfold inPackage at h
    rw [if_pos hp, if_pos hp] at h
    exact congrArg text h
  · have hchars := congrArg (·.text.toList) h
    rw [toList_inPackage hp, toList_inPackage hp, List.append_cancel_left_eq,
      List.cons.injEq] at hchars
    exact String.toList_inj.mp hchars.2

/-- A name determines its namespace and its simple name. -/
theorem inPackage_inj {p q s t : String} (hs : '.' ∉ s.toList) (ht : '.' ∉ t.toList) :
    inPackage p s = inPackage q t ↔ p = q ∧ s = t := by
  refine ⟨?_, ?_⟩
  · intro h
    have hsimple : s = t := by
      rw [← simpleName_inPackage p hs, h, simpleName_inPackage q ht]
    subst hsimple
    refine ⟨?_, rfl⟩
    -- the package is what stands before the last dot, if there is one
    have hchars := congrArg (·.text.toList) h
    by_cases hp : p = "" <;> by_cases hq : q = ""
    · rw [hp, hq]
    · subst hp
      rw [toList_inPackage hq] at hchars
      exact absurd (by rw [show s.toList = _ from hchars]; simp) hs
    · subst hq
      rw [toList_inPackage hp] at hchars
      exact absurd (by rw [show s.toList = _ from hchars.symm]; simp) hs
    · rw [toList_inPackage hp, toList_inPackage hq, List.append_cancel_right_eq] at hchars
      exact String.toList_inj.mp hchars
  · rintro ⟨rfl, rfl⟩
    rfl

end Name

namespace Vocabulary

theorem lookupName_inj {a b : Name} : lookupName a = lookupName b ↔ a.flatten = b.flatten :=
  @Name.inPackage_right_inj lookupNamespace _ _

theorem markerName_inj {a b : Name} : markerName a = markerName b ↔ a.flatten = b.flatten :=
  @Name.inPackage_right_inj extendNamespace _ _

/-- The namespaces of lookups and markers are as long as each other, and different. -/
theorem lookup_ne_marker (s t : String) :
    Name.inPackage lookupNamespace s ≠ Name.inPackage extendNamespace t := by
  intro h
  have hchars := congrArg (·.text.toList) h
  rw [Name.toList_inPackage (by decide), Name.toList_inPackage (by decide)] at hchars
  exact absurd (List.append_inj hchars (by decide)).1 (by decide)

end Vocabulary

theorem Declaration.aggregateName_inj {d e : Declaration} :
    d.aggregateName = e.aggregateName ↔
      d.package = e.package ∧ d.joinedSimpleName = e.joinedSimpleName := by
  have hdots : ∀ x : Declaration, '.' ∉ (x.joinedSimpleName ++ mergedSuffix).toList := by
    intro x
    unfold Declaration.joinedSimpleName mergedSuffix
    simp
  unfold Declaration.aggregateName
  rw [Name.inPackage_inj (hdots d) (hdots e)]
  exact and_congr_right fun _ => String.append_left_inj _

/-! ## Complaints about identities -/

/-- The complaint, or one of the complaints, is that a file identity is taken. -/
def SessionError.ReportsTaken : SessionError → Prop
  | .failed diagnostics => ∃ id, .ofError (.fileAlreadyExists id) ∈ diagnostics
  | .refused error => ∃ id, error = .fileAlreadyExists id
  | .roundLimit _ => False

/-- No two of some files share an identity. -/
def DistinctIds (files : List SourceFile) : Prop :=
  files.Pairwise fun f g => f.id ≠ g.id

theorem distinctIds_append {old new : List SourceFile} (hold : DistinctIds old) :
    DistinctIds (old ++ new) ↔ Fresh old new := by
  unfold DistinctIds Fresh
  rw [List.pairwise_append]
  exact ⟨fun h => h.2, fun h => ⟨hold, h⟩⟩

theorem distinctIds_iff {files : List SourceFile} :
    DistinctIds files ↔ (files.map (·.id)).Nodup :=
  List.pairwise_map.symm

theorem FileId.generated_injective : Function.Injective FileId.generated := by
  intro a b h
  have htext : "generated/" ++ a.text = "generated/" ++ b.text := congrArg FileId.text h
  rw [String.append_right_inj] at htext
  cases a
  cases b
  exact congrArg Name.mk htext

/-- A unit of new identities is not refused for an identity. -/
theorem SymbolTable.ne_taken_of_addUnit {table : SymbolTable} {files : List SourceFile}
    {isLocal : Bool} {error : MergeError} (h : table.addUnit { files } isLocal = .error error)
    (hfresh : Fresh table.files files) (id : FileId) : error ≠ .fileAlreadyExists id := by
  obtain ⟨before, file, after, hsplit, hrefuses⟩ := exists_refuses_of_addUnit h
  dsimp only at hsplit
  subst hsplit
  rintro rfl
  cases hrefuses with
  | taken htaken =>
      obtain ⟨g, hg, hid⟩ := htaken
      rcases List.mem_append.mp hg with hg | hg
      · exact hfresh.2 g hg file (by simp) hid
      · exact (List.pairwise_append.mp hfresh.1).2.2 g hg file List.mem_cons_self hid

namespace Session

open Contribution Contributed

variable {options : Options} {start : SymbolTable} {state : State}

/-! ## What is generated, by name -/

/-- The names that a processor writes for some sources: those of markers or those of lookups. -/
def namesBy (start : SymbolTable) (ds : List Declaration) : Processor → List Name
  | .contributingAnnotations =>
    (ds.filter (·.isAnnotatedWith contributingAnnotation)).map fun d => markerName d.name
  | processor =>
    (recordedBy ds processor).filterMap fun c => (c.record? start).map (·.lookup)

/-- The names of all lookups, markers and aggregates that the sources ask for. -/
def generatedNames (options : Options) (start : SymbolTable) : List Name :=
  (Round.recording options).flatMap (namesBy start start.localDeclarations) ++
    (requests options start).map (·.aggregateName)

/-- Files of one lookup each are identified by the lookups in them. -/
theorem map_id_of_lookups {files : List SourceFile}
    (h : ∀ file ∈ files, ∃ e, file = .generated e ∧ e.isLookup = true) :
    files.map (·.id) = (lookupsIn files).map fun e => .generated e.name := by
  induction files with
  | nil => rfl
  | cons file rest ih =>
      obtain ⟨e, rfl, he⟩ := h file List.mem_cons_self
      rw [show SourceFile.generated e :: rest = [.generated e] ++ rest from rfl, lookupsIn_append,
        List.map_append, List.map_append, ih fun f hf => h f (List.mem_cons_of_mem _ hf)]
      simp [lookupsIn, SourceFile.generated, he]

/-- What a contribution is recorded under names the lookup that was written for it. -/
theorem map_name_of_recorded {cs : List Contributed} {ls : List Declaration}
    (h : List.Forall₂ (IsRecorded options start) cs ls) :
    ls.map (·.name) = cs.filterMap fun c => (c.record? start).map (·.lookup) := by
  induction h with
  | nil => rfl
  | cons hrecorded _ ih =>
      obtain ⟨record, scope, hrecorded⟩ := hrecorded
      rw [List.map_cons, List.filterMap_cons, hrecorded.understood, ih, hrecorded.named]
      rfl

theorem ids_of_processor (hr : Ready start) (hg : AllSucceed (emissions options start))
    (hdistinct : ∀ file ∈ start.files, file.DistinctNames) {processor : Processor}
    (hp : processor ∈ Round.recording options) :
    (written ((processor.channels options start).flatMap
        (·.emissions start.localDeclarations))).map (·.id) =
      (namesBy start start.localDeclarations processor).map FileId.generated := by
  by_cases hne : processor = .contributingAnnotations
  · -- every annotation class has its marker
    subst hne
    unfold Processor.channels namesBy written Channel.emissions
    rw [List.flatMap_singleton, List.flatMap_map, List.map_flatMap, List.map_map,
      List.map_eq_flatMap]
    refine List.flatMap_congr fun d hd => ?_
    obtain ⟨hd, haccepts⟩ := List.mem_filter.mp hd
    obtain ⟨es, hes⟩ := allSucceed_emissions_iff.mp hg
      ⟨(·.isAnnotatedWith contributingAnnotation), markers⟩
      (List.mem_flatMap.mpr ⟨_, hp, List.mem_singleton_self _⟩) d hd haccepts
    rw [ofOutcome_eq_some_iff.mpr ⟨_, hes, rfl⟩, markers_ok hes]
    rfl
  · have hnames := map_name_of_recorded (forall₂_recordedBy hr hg hdistinct hp)
    have hby : namesBy start start.localDeclarations processor =
        (recordedBy start.localDeclarations processor).filterMap
          fun c => (c.record? start).map (·.lookup) := by
      cases processor <;> first | rfl | exact absurd rfl hne
    rw [hby, ← hnames, List.map_map]
    refine map_id_of_lookups fun file hfile => ?_
    obtain ⟨channel, hchannel, d, _, _, es, hes, e, he, rfl⟩ := mem_written_channels.mp hfile
    obtain ⟨_, _, hstands, _⟩ := givesLookups_of_channel hne hchannel d es hes e he
    exact ⟨e, rfl, hstands.isLookup⟩

/-- **What is generated is identified by the generated names.** -/
theorem ids_generated (hr : Ready start) (hdistinct : ∀ file ∈ start.files, file.DistinctNames)
    (hemits : AllSucceed (emissions options start)) (hmerges : AllSucceed (answers options start)) :
    (emitted options start ++ merged options start).map (·.id) =
      (generatedNames options start).map FileId.generated := by
  have hmerged : (merged options start).map (·.id) =
      ((requests options start).map (·.aggregateName)).map FileId.generated := by
    unfold merged written answers
    rw [List.flatMap_map, List.map_flatMap, List.map_map, List.map_eq_flatMap]
    refine List.flatMap_congr fun r hr => ?_
    obtain ⟨files, hfiles⟩ := Option.isSome_iff_exists.mp (hmerges _ (List.mem_map_of_mem hr))
    obtain ⟨file, hfile, rfl⟩ := ofResult_eq_some_iff.mp hfiles
    obtain ⟨request, finals, hrequest, _, rfl⟩ := Merge.finalize_eq_ok_iff.mp hfile
    rw [hfiles]
    simp [SourceFile.generated, Merge.name_aggregate hrequest]
  unfold generatedNames
  rw [List.map_append, List.map_append, hmerged, emitted_eq, List.map_flatMap, List.map_flatMap]
  exact congrArg (· ++ _) (List.flatMap_congr fun processor hp =>
    ids_of_processor hr hemits hdistinct hp)

/-! ## When a compilation complains about an identity -/

namespace State

/-- **A round goes wrong in two ways although every attempt succeeds.** It writes an identity
twice and complains about it, or all identities are different and a name is taken. -/
theorem step_error_cases (h : Coherent start state) (hall : AllSucceed (state.attempts options))
    (hapart : ∀ g ∈ start.files, ∀ f ∈ written (state.attempts options), g.Apart f)
    {error : SessionError} (hstep : state.step options = .error error) :
    error.ReportsTaken ∧ ¬ Fresh state.workspace.output.files (written (state.attempts options)) ∨
      ¬ error.ReportsTaken ∧ Fresh state.workspace.output.files (written (state.attempts options)) ∧
        ¬ (state.next options).table.WellFormed := by
  have hwrites : state.workspace.output.Writes (state.next options).workspace.output
      (state.attempts options) := Round.run_writes options state.current state.workspace
  rw [step_eq] at hstep
  cases hclean : (state.next options).workspace.output.hasErrors with
  | true =>
      rw [hclean, if_pos rfl] at hstep
      obtain rfl := Except.error.inj hstep
      refine Or.inl ⟨?_, fun hfresh => ?_⟩
      · -- there was no error before, so the one there is complains about an identity
        obtain ⟨entry, hentry, herror⟩ := List.any_eq_true.mp hclean
        rcases hwrites.errors hall entry hentry herror with hbefore | ⟨file, _, rfl⟩
        · exact absurd herror (List.any_eq_false.mp h.clean entry hbefore)
        · exact ⟨file.id, hentry⟩
      · have hok := hwrites.clean_iff.mpr ⟨h.clean, hall, hfresh⟩
        exact absurd (hclean.symm.trans hok) (by simp)
  | false =>
      have hfresh := (hwrites.clean_iff.mp hclean).2.2
      rw [hclean, if_neg (by simp), files_next hclean, List.drop_left] at hstep
      cases hadd : state.current.addUnit { files := written (state.attempts options) } true with
      | ok extended =>
          rw [hadd] at hstep
          exact nomatch hstep
      | error refusal =>
          rw [hadd] at hstep
          obtain rfl := Except.error.inj hstep
          have hnew : Fresh state.current.files (written (state.attempts options)) := by
            refine ⟨hfresh.1, fun g hg f hf => ?_⟩
            rw [show state.current.files = _ from h.files] at hg
            exact (List.mem_append.mp hg).elim (fun hg => (hapart g hg f hf).1)
              fun hg => hfresh.2 g hg f hf
          refine Or.inr ⟨?_, hfresh, fun hw => ?_⟩
          · rintro ⟨id, rfl⟩
            exact SymbolTable.ne_taken_of_addUnit hadd hnew id rfl
          · have hok := (@SymbolTable.addUnit_eq_ok_iff state.current (state.next options).table
              true h.extends.wellFormed { files := written (state.attempts options) }).mpr ⟨rfl, hw⟩
            rw [hadd] at hok
            exact nomatch hok

/-- What is emitted fits behind sources that it is apart from, if its identities differ: it
declares one name in each file, the one that identifies it. -/
theorem wellFormed_append_of_distinctIds (hw : start.WellFormed)
    (hapart : ∀ g ∈ start.files, ∀ f ∈ emitted options start, g.Apart f)
    (hdistinct : DistinctIds (emitted options start)) :
    (start.append (emitted options start) true).WellFormed := by
  refine SymbolTable.wellFormed_append_iff.mpr ⟨hw, ?_, hapart⟩
  refine hdistinct.imp_of_mem fun {f g} hf hg hids => ⟨hids, ?_⟩
  obtain ⟨d, rfl, _⟩ := emitted_cases hf
  obtain ⟨e, rfl, _⟩ := emitted_cases hg
  intro x hx y hy hname
  rw [List.mem_singleton.mp hx, List.mem_singleton.mp hy] at hname
  exact hids (congrArg FileId.generated hname)

/-- **The first round that goes wrong complains about an identity exactly if one is generated
twice.** -/
theorem reportsTaken_iff_of_step (hr : Ready start) (hemits : AllSucceed (emissions options start))
    (hmerges : AllSucceed (answers options start))
    (hapart : ∀ g ∈ start.files, ∀ f ∈ emitted options start ++ merged options start, g.Apart f)
    (hcases : state = { table := start } ∨ Underway options start state)
    {error : SessionError} (hstep : state.step options = .error error) :
    error.ReportsTaken ↔ ¬ DistinctIds (emitted options start ++ merged options start) := by
  have hcoherent := coherent_of_cases hr hcases
  -- a round that attempts all there is left, or nothing at all
  have hrest : AllSucceed (state.attempts options) →
      written (state.attempts options) ⊆ emitted options start ++ merged options start →
      (Fresh state.workspace.output.files (written (state.attempts options)) ↔
        DistinctIds (emitted options start ++ merged options start)) →
      (error.ReportsTaken ↔ ¬ DistinctIds (emitted options start ++ merged options start)) := by
    intro hall hsub hiff
    rw [← hiff]
    rcases step_error_cases hcoherent hall (fun g hg f hf => hapart g hg f (hsub hf)) hstep with
      ⟨htaken, hnot⟩ | ⟨htaken, hfresh, _⟩
    · exact ⟨fun _ => hnot, fun _ => htaken⟩
    · exact ⟨fun h => absurd h htaken, fun h => absurd hfresh h⟩
  have hsucceeds : ¬ state.Succeeds options := by
    intro hs
    rw [(step_eq_ok_iff hcoherent).mpr ⟨hs, rfl⟩] at hstep
    exact nomatch hstep
  have hnothing : state.attempts options ≠ [] := by
    intro hnone
    refine hsucceeds ⟨by rw [hnone]; exact nofun, ?_⟩
    unfold next
    rw [hnone, show written [] = [] from rfl, SymbolTable.append_nil]
    exact hcoherent.extends.wellFormed
  rcases hcases with rfl | hunderway
  · have hattempts : attempts options { table := start } = _ := attempts_start hr
    cases hwaits : waits options start with
    | true =>
        -- only what is emitted is at stake, and it fits unless an identity is repeated
        rw [hwaits, if_pos rfl, List.append_nil] at hattempts
        have hemitted : ¬ DistinctIds (emitted options start) := fun hdistinct => by
          have hfits := wellFormed_append_of_distinctIds hr.wellFormed
            (fun g hg f hf => hapart g hg f (List.mem_append_left _ hf)) hdistinct
          refine hsucceeds ⟨by rwa [hattempts], hfits.of_perm (List.Perm.of_eq ?_)⟩
          unfold next
          rw [hattempts, SymbolTable.files_append, SymbolTable.files_append]
          rfl
        refine hrest (by rwa [hattempts]) ?_ (iff_of_false ?_ ?_)
        · rw [hattempts]
          exact List.subset_append_left _ _
        · rw [hattempts]
          exact fun hfresh => hemitted hfresh.1
        · exact fun hdistinct => hemitted (hdistinct.sublist (List.sublist_append_left _ _))
    | false =>
        rw [hwaits, if_neg (by simp)] at hattempts
        refine hrest ?_ ?_ ?_
        · rw [hattempts, allSucceed_append]
          exact ⟨hemits, hmerges⟩
        · rw [hattempts, written_append]
          exact List.Subset.refl _
        · have hnone : DistinctIds [] := List.Pairwise.nil
          have hold : State.workspace { table := start } = {} := rfl
          rw [hattempts, written_append, hold]
          exact (distinctIds_append hnone).symm
  · rcases hunderway.phase with hawaiting | hconcluded
    · have hattempts := attempts_awaiting hr hunderway.toSettled hawaiting
      cases hwaits : Round.waits options state.current with
      | true =>
          rw [hwaits, if_pos rfl] at hattempts
          exact absurd hattempts hnothing
      | false =>
          rw [hwaits, if_neg (by simp)] at hattempts
          have hold : DistinctIds (emitted options start) := by
            have hpairwise : (start.files ++ emitted options start).Pairwise SourceFile.Apart := by
              rw [← hawaiting.files, ← hunderway.files]
              exact hunderway.wellFormed
            exact (List.pairwise_append.mp hpairwise).2.1.imp fun h => h.1
          refine hrest ?_ ?_ ?_
          · rwa [hattempts]
          · rw [hattempts]
            exact List.subset_append_right _ _
          · rw [hattempts, hawaiting.files]
            exact (distinctIds_append hold).symm
    · exact absurd (attempts_concluded hunderway.toSettled hconcluded) hnothing

end State

variable {inputs : List Input} {n : Nat}

section

variable (hdistinct : ∀ file ∈ inputFiles inputs, file.DistinctNames)
  (hw : (loadedTable inputs).WellFormed)
  (hemits : AllSucceed (emissions options (loadedTable inputs)))
  (hmerges : AllSucceed (answers options (loadedTable inputs)))
  (hapart : ∀ g ∈ (loadedTable inputs).files,
    ∀ f ∈ emitted options (loadedTable inputs) ++ merged options (loadedTable inputs), g.Apart f)
  (hn : 4 ≤ n)

include hdistinct hw hemits hmerges hapart hn in
/-- A compilation of sound sources complains about an identity exactly if one is generated twice,
in whatever rounds that may be. -/
theorem reportsTaken_iff :
    (∃ error, compile options n inputs = .error error ∧ error.ReportsTaken) ↔
      ¬ DistinctIds (emitted options (loadedTable inputs) ++
        merged options (loadedTable inputs)) := by
  have hr := ready_loadedTable hw hdistinct
  have hround : ∀ {state error}, State.Reaches options { table := loadedTable inputs } state →
      state.step options = .error error → _ := fun hreaches hstep =>
    State.reportsTaken_iff_of_step hr hemits hmerges hapart
      (State.underway_of_reaches hr hreaches) hstep
  have hlimit := ( State.Remaining.complete hr.builtins hw hr.incoming
    (@State.Remaining.start options _) (by omega) hn).2.1
  rw [compile_eq_complete hw]
  refine ⟨?_, ?_⟩
  · rintro ⟨error, herror, htaken⟩
    rcases State.exists_failing_round herror with ⟨rounds, rfl⟩ | ⟨last, hreaches, hlast⟩
    · exact absurd htaken id
    · exact (hround hreaches hlast).mp htaken
  · intro hrepeated
    cases hcomplete : State.complete options n { table := loadedTable inputs } with
    | ok final =>
        -- what fits into one table has different identities
        have hgoes := (compile_ok_iff hdistinct hn).mp
          ⟨final, (compile_eq_complete hw).trans hcomplete⟩
        refine absurd ?_ hrepeated
        exact (SymbolTable.wellFormed_append_iff.mp hgoes.fits).2.1.imp fun h => h.1
    | error error =>
        refine ⟨error, rfl, ?_⟩
        rcases State.exists_failing_round hcomplete with ⟨rounds, rfl⟩ | ⟨last, hreaches, hlast⟩
        · exact absurd hcomplete (hlimit rounds)
        · exact (hround hreaches hlast).mpr hrepeated

end

/-- **Sound sources clash exactly when two things they ask for have one name.** If no input
declares a name twice, every contribution is sound, every merge request is answered, and no input
has the identity or a name of something generated, then a compilation that may take four rounds
complains about a file identity exactly when the generated names repeat themselves. Lookups of
two declarations have one name when the flattened names are the same, and so have markers; two
bindings do when their labels are the same; a lookup is never named like a marker; aggregates have
one name when the requests share the package and the joined simple name. -/
theorem clash_iff_repeated_name (hdistinct : ∀ file ∈ inputFiles inputs, file.DistinctNames)
    (hw : (loadedTable inputs).WellFormed)
    (hemits : AllSucceed (emissions options (loadedTable inputs)))
    (hmerges : AllSucceed (answers options (loadedTable inputs)))
    (hapart : ∀ g ∈ (loadedTable inputs).files,
      ∀ f ∈ emitted options (loadedTable inputs) ++ merged options (loadedTable inputs), g.Apart f)
    (hn : 4 ≤ n) :
    ((∃ error, compile options n inputs = .error error ∧ error.ReportsTaken) ↔
        ¬ (generatedNames options (loadedTable inputs)).Nodup) ∧
      (∀ a b : Name, lookupName a = lookupName b ↔ a.flatten = b.flatten) ∧
      (∀ a b : Name, markerName a = markerName b ↔ a.flatten = b.flatten) ∧
      (∀ s t : String,
        Name.inPackage lookupNamespace s = Name.inPackage lookupNamespace t ↔ s = t) ∧
      (∀ s t : String, Name.inPackage lookupNamespace s ≠ Name.inPackage extendNamespace t) ∧
      ∀ d e : Declaration, d.aggregateName = e.aggregateName ↔
        d.package = e.package ∧ d.joinedSimpleName = e.joinedSimpleName := by
  refine ⟨?_, fun _ _ => lookupName_inj, fun _ _ => markerName_inj,
    fun _ _ => Name.inPackage_right_inj, lookup_ne_marker, fun _ _ => Declaration.aggregateName_inj⟩
  have hids := ids_generated (ready_loadedTable hw hdistinct) (distinctNames_loadedTable hdistinct)
    hemits hmerges
  rw [reportsTaken_iff hdistinct hw hemits hmerges hapart hn, distinctIds_iff, hids,
    List.nodup_map_iff FileId.generated_injective]

end Session

/-! ## Two interfaces with one lookup name -/

namespace Sample

def foo : Declaration :=
  { Declaration.topLevel .interface "com.app" "Foo" with annotations := [forScope contributesTo] }

def appFoo : Declaration :=
  { Declaration.topLevel .interface "com" "AppFoo" with annotations := [forScope contributesTo] }

/-- Both interfaces, each in a file of its own. -/
def lookalikes : List Session.Input :=
  [.sources { files := [{ id := ⟨"Foo.kt"⟩, declarations := [foo] },
    { id := ⟨"AppFoo.kt"⟩, declarations := [appFoo] }] }]

theorem distinct_lookalikes : ∀ file ∈ Session.inputFiles lookalikes, file.DistinctNames := by
  decide

theorem lookalikes_sound :
    (Session.loadedTable lookalikes).WellFormed ∧
      AllSucceed (Session.emissions {} (Session.loadedTable lookalikes)) ∧
      AllSucceed (Session.answers {} (Session.loadedTable lookalikes)) ∧
      ∀ g ∈ (Session.loadedTable lookalikes).files,
        ∀ f ∈ Session.emitted {} (Session.loadedTable lookalikes) ++
          Session.merged {} (Session.loadedTable lookalikes), g.Apart f := by
  decide

end Sample

namespace Session

theorem lookalikes_clash_iff :
    (∀ file ∈ inputFiles Sample.lookalikes, file.DistinctNames) ∧
      (loadedTable Sample.lookalikes).WellFormed ∧
      AllSucceed (emissions {} (loadedTable Sample.lookalikes)) ∧
      AllSucceed (answers {} (loadedTable Sample.lookalikes)) ∧ 4 ≤ 4 ∧
      ((∃ error, compile {} 4 Sample.lookalikes = .error error ∧ error.ReportsTaken) ↔
        ¬ (generatedNames {} (loadedTable Sample.lookalikes)).Nodup) := by
  obtain ⟨hw, hemits, hmerges, hapart⟩ := Sample.lookalikes_sound
  exact ⟨Sample.distinct_lookalikes, hw, hemits, hmerges, Nat.le_refl 4,
    (clash_iff_repeated_name Sample.distinct_lookalikes hw hemits hmerges hapart
      (Nat.le_refl 4)).1⟩

/-- **Different interfaces can have one lookup name.** Both are sound, and together they are
refused for an identity. -/
theorem lookalikes_share_identity :
    (∀ file ∈ inputFiles Sample.lookalikes, file.DistinctNames) ∧
      (loadedTable Sample.lookalikes).WellFormed ∧
      AllSucceed (emissions {} (loadedTable Sample.lookalikes)) ∧
      Sample.foo.name ≠ Sample.appFoo.name ∧
      FileId.generated (lookupName Sample.foo.name) =
        FileId.generated (lookupName Sample.appFoo.name) ∧
      ∃ error, compile {} 4 Sample.lookalikes = .error error ∧ error.ReportsTaken := by
  obtain ⟨hw, hemits, hmerges, hapart⟩ := Sample.lookalikes_sound
  have hname : lookupName Sample.foo.name = lookupName Sample.appFoo.name :=
    lookupName_inj.mpr (by decide)
  refine ⟨Sample.distinct_lookalikes, hw, hemits, by decide, congrArg _ hname, ?_⟩
  refine (reportsTaken_iff Sample.distinct_lookalikes hw hemits hmerges hapart
    (Nat.le_refl 4)).mpr ?_
  rw [distinctIds_iff]
  decide

end Session

end ScopeMerge
