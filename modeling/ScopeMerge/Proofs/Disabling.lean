import ScopeMerge.Proofs.Naming
import ScopeMerge.Proofs.Nesting

/-!
# Switching a processor off

A processor that records contributions, switched off, takes its lookups with it
and nothing else. Whatever else is emitted stays as it is (`emitted_disable`). The
lookups of the processor are inert and no other lookup has its origin in one of
them, so a merge from the smaller table selects what it selected before without
these (`SymbolTable.Extends.thins`), and so does every merge inside it.

Without the lookups the first round may have nothing to wait for any more. The
requests are then answered one round earlier, before the markers of custom
annotations are visible, which is all the same to a merge
(`agrees_append_emitted`).

Subcomponents are the exception. Without its lookup a subcomponent has no final
component, and neither has what is inside it.
-/

namespace ScopeMerge

open Vocabulary Attempt

/-- A file without some supertypes takes the same identity and the same names. -/
theorem SourceFile.outline_without (gone : List Name) (file : SourceFile) :
    (file.without gone).outline = file.outline := by
  simp [outline, without, Declaration.without, Function.comp_def]

/-! ## Options -/

/-- The options with one more processor switched off. -/
def Options.disable (options : Options) (processor : Processor) : Options :=
  { options with disabled := options.disabled ++ [processor.id] }

theorem Processor.id_injective : Function.Injective Processor.id := by
  intro p q h
  cases p <;> cases q <;> first | rfl | exact absurd h (by decide)

namespace Options

variable {options : Options} {processor other : Processor}

theorem isDisabled_disable :
    (options.disable processor).isDisabled other.id
      = (options.isDisabled other.id || decide (other = processor)) := by
  unfold disable isDisabled
  rw [Bool.eq_iff_iff, Bool.or_eq_true, decide_eq_true_eq, List.contains_iff_mem,
    List.contains_iff_mem, List.mem_append, List.mem_singleton]
  exact or_congr_right Processor.id_injective.eq_iff

end Options

/-! ## What is left switched on -/

namespace Round

variable {options : Options} {processor : Processor}

theorem recording_disable :
    recording (options.disable processor) = (recording options).filter (· ≠ processor) := by
  unfold recording
  rw [List.filter_filter]
  refine List.filter_congr fun other _ => ?_
  rw [Options.isDisabled_disable, Bool.not_or, Bool.and_comm]
  simp

theorem merges_disable (h : processor ≠ .mergeComponent) :
    merges (options.disable processor) = merges options := by
  unfold merges
  rw [Options.isDisabled_disable, decide_eq_false h.symm, Bool.or_false]

/-- What a processor makes of a declaration does not depend on who else is switched on. -/
theorem channels_disable (other : Processor) (table : SymbolTable) :
    other.channels (options.disable processor) table = other.channels options table := by
  cases other <;> rfl

end Round

/-! ## Who extends lookups -/

/-- The two kinds of interface that extend what a merge selected: the aggregate of a request, and
the merged interface beside a final component. -/
inductive Merge.Collects : Declaration → Prop where
  | aggregate (request : MergeRequest) (contributions : List Declaration) (factories : List Name) :
      Collects (Merge.aggregate request contributions factories)
  | merged (package : String) (parent : Name) (shape : SubcomponentShape)
      (contributions : List Declaration) (factories : List Name) :
      Collects (FinalComponents.merged package parent shape contributions factories)

/-- Nothing else in an answer extends a lookup that may be lacking. -/
theorem Merge.collects_of_without_ne {gone : List Name} {t t' : SymbolTable}
    (h : Thins gone t t') {d : Declaration} {file : SourceFile} (hf : finalize t d = .ok file)
    (hnames : ∀ e ∈ file.declarations, e.name ∉ gone) {e : Declaration}
    (he : e ∈ file.declarations) (hne : e.without gone ≠ e) : Collects e := by
  obtain ⟨request, finals, _, hfinals, rfl⟩ := finalize_eq_ok_iff.mp hf
  rcases List.mem_cons.mp he with rfl | he
  · exact .aggregate _ _ _
  -- a final component and its factory extend a subcomponent and its factory, and each other
  obtain ⟨nesting, hunfolds, _, rfl⟩ := FinalComponents.generate_eq_ok_iff.mp hfinals
  obtain ⟨path, hpath, hpart⟩ := List.mem_flatMap.mp he
  have hshape := (hunfolds.mem_paths_iff.mp hpath).shapeOf_eq path.last
    (List.mem_append_right _ (List.mem_singleton_self _))
  obtain ⟨hsubcomponent, hfactory⟩ := FinalComponents.notMem_of_shapeOf h hshape
  have hmerged : (path.merged t d.package d.name).name ∉ gone :=
    hnames _ (List.mem_cons_of_mem _ (List.mem_flatMap.mpr
      ⟨path, hpath, by simp [FinalComponents.Path.implementation]⟩))
  simp only [FinalComponents.Path.implementation, List.mem_cons, List.not_mem_nil, or_false]
    at hpart
  rcases hpart with rfl | rfl | rfl
  · exact absurd (FinalComponents.component_without hsubcomponent hmerged) hne
  · exact absurd (FinalComponents.factory_without hfactory) hne
  · exact .merged _ _ _ _ _

/-- What a processor writes in the first round of a compilation, if no one else writes. -/
def Processor.writes (processor : Processor) (options : Options) (start : SymbolTable) :
    List SourceFile :=
  (processor.run options (start.beginRound []) {}).1.output.files

/-- The names it declares in doing so. -/
def Processor.writtenNames (processor : Processor) (options : Options) (start : SymbolTable) :
    List Name :=
  CompilationUnit.names { files := processor.writes options start }

/-- The processors whose lookups stand for interfaces and bindings, and for no subcomponent. -/
def Processor.WritesPlainLookups (processor : Processor) : Prop :=
  processor = .contributesTo ∨ processor = .contributesBinding ∨ processor = .legacy

instance (processor : Processor) : Decidable processor.WritesPlainLookups :=
  inferInstanceAs (Decidable (_ ∨ _ ∨ _))

namespace Session

open Contribution

variable {options : Options} {start : SymbolTable} {final : State} {processor : Processor}

/-! ## What a processor writes -/

/-- What the channels of a processor make of the sources. -/
def writtenBy (options : Options) (start : SymbolTable) (processor : Processor) :
    List SourceFile :=
  written ((processor.channels options start).flatMap (·.emissions start.localDeclarations))

theorem emitted_eq_writtenBy :
    emitted options start = (Round.recording options).flatMap (writtenBy options start) :=
  emitted_eq

theorem writtenBy_subset (hp : processor ∈ Round.recording options) :
    writtenBy options start processor ⊆ emitted options start := by
  rw [emitted_eq_writtenBy]
  exact fun _ hfile => List.mem_flatMap.mpr ⟨processor, hp, hfile⟩

/-- No two processors write the same file. -/
theorem disjoint_writtenBy (hfits : (emitted options start).Pairwise SourceFile.Apart)
    {other : Processor} (hp : processor ∈ Round.recording options)
    (hother : other ∈ Round.recording options) (hne : other ≠ processor) {file : SourceFile}
    (h : file ∈ writtenBy options start other) : file ∉ writtenBy options start processor := by
  rw [emitted_eq_writtenBy, List.pairwise_flatMap] at hfits
  have hsymm : Std.Symm fun p q : Processor => ∀ f ∈ writtenBy options start p,
      ∀ g ∈ writtenBy options start q, f.Apart g :=
    ⟨fun _ _ h f hf g hg => (h g hg f hf).symm⟩
  exact fun hmem => (List.Pairwise.forall hfits.2 hother hp hne file h file hmem).1 rfl

/-- **A processor writes what its channels make of the sources.** -/
theorem writes_eq (hr : Ready start) (hp : processor ∈ Round.recording options)
    (hemits : AllSucceed (emissions options start))
    (hfits : (emitted options start).Pairwise SourceFile.Apart) :
    processor.writes options start = writtenBy options start processor := by
  have hnew : ∀ file ∈ start.localFiles, file.id ∈ start.incoming := by
    intro file hf
    rw [hr.incoming]
    exact List.mem_map_of_mem hf
  have hextends : (start.beginRound []).Extends start [] :=
    (State.coherent_start hr.wellFormed).extends
  have hwell : (start.beginRound []).WellFormed := hr.wellFormed
  have hattempts : processor.attempts options (start.beginRound []) {}
      = (processor.channels options start).flatMap (·.emissions start.localDeclarations) :=
    (Processor.attempts_first hwell hr.distinct hnew processor).trans
      (Processor.emissions_congr (fun d _ => hextends.sameContext d) processor).symm
  have hwrites := @Processor.run_writes processor options (start.beginRound []) {}
    (Round.ne_merge_of_recording hp)
  rw [show ({} : Workspace).taken = {} from rfl, hattempts] at hwrites
  have hall : AllSucceed ((processor.channels options start).flatMap
      (·.emissions start.localDeclarations)) := by
    intro attempt hattempt
    obtain ⟨channel, hchannel, hmem⟩ := List.mem_flatMap.mp hattempt
    exact hemits attempt (List.mem_flatMap.mpr
      ⟨channel, List.mem_flatMap.mpr ⟨processor, hp, hchannel⟩, hmem⟩)
  -- nobody else takes an identity, and the processor takes each once
  have hids : (writtenBy options start processor).Pairwise fun f g => f.id ≠ g.id := by
    rw [emitted_eq_writtenBy, List.pairwise_flatMap] at hfits
    exact (hfits.1 processor hp).imp fun hapart => hapart.1
  have hclean := hwrites.clean_iff.mpr ⟨rfl, hall, hids, nofun⟩
  exact hwrites.files hclean

/-- A processor for interfaces or bindings writes lookups, and none for a factory. -/
theorem plain_of_writtenBy (hplain : processor.WritesPlainLookups) {file : SourceFile}
    (h : file ∈ writtenBy options start processor) :
    ∃ e, file = .generated e ∧ e.isLookup = true ∧ e.isSubcomponentLookup = false := by
  obtain ⟨channel, hchannel, d, _, haccepts, es, hes, e, he, rfl⟩ := mem_written_channels.mp h
  have hne : processor ≠ .contributingAnnotations := by
    rintro rfl
    exact absurd hplain (by decide)
  obtain ⟨_, _, hstands, _⟩ := givesLookups_of_channel hne hchannel d es hes e he
  refine ⟨e, rfl, hstands.isLookup, Bool.eq_false_iff.mpr fun hsub => ?_⟩
  obtain ⟨rfl, _⟩ := subcomponentLookup_of_contribute hchannel haccepts hes he hsub
  exact absurd hplain (by decide)

/-- What is emitted extends nothing but what the inputs declare. -/
theorem supertypes_of_emitted {file : SourceFile} (h : file ∈ emitted options start)
    {e : Declaration} (he : e ∈ file.declarations) {n : Name} (hn : n ∈ e.supertypes) :
    ∃ x ∈ start.declarations, x.name = n := by
  obtain ⟨channel, hchannel, d, hd, haccepts, es, hes, found, hfound, rfl⟩ :=
    mem_written_emissions.mp h
  obtain rfl := List.mem_singleton.mp he
  obtain ⟨p, _, hchannel⟩ := List.mem_flatMap.mp hchannel
  rcases Processor.contribute_cases hchannel haccepts hes hfound with
    ⟨scope, rfl⟩ | ⟨scope, binding, rfl⟩ | ⟨_, _, hlookup⟩ | ⟨_, rfl⟩
  · exact ⟨d, SymbolTable.localDeclarations_subset hd, (List.mem_singleton.mp hn).symm⟩
  · exact nomatch hn
  · obtain ⟨shape, scope, hshape, _, rfl⟩ := subcomponentLookup_eq_ok_iff.mp hlookup
    obtain rfl := List.mem_singleton.mp hn
    obtain ⟨⟨_, _, _, hfind⟩, _⟩ := SubcomponentShape.mem_factories_iff.mp
      (SubcomponentShape.factory_mem_of_ofSubcomponent hshape)
    exact ⟨shape.factory, (SymbolTable.find?_eq_some hfind).1, rfl⟩
  · exact nomatch hn

/-! ## What else is emitted -/

theorem writtenBy_disable (other : Processor) :
    writtenBy (options.disable processor) start other = writtenBy options start other := by
  unfold writtenBy
  rw [Round.channels_disable]

/-- **All other processors emit what they emitted before.** -/
theorem emitted_disable (hp : processor ∈ Round.recording options)
    (hfits : (emitted options start).Pairwise SourceFile.Apart) :
    emitted (options.disable processor) start
      = (emitted options start).filter (· ∉ writtenBy options start processor) := by
  have hothers : ∀ other ∈ (Round.recording options).filter (· ≠ processor),
      writtenBy (options.disable processor) start other
        = (writtenBy options start other).filter (· ∉ writtenBy options start processor) := by
    intro other hmem
    obtain ⟨hother, hne⟩ := List.mem_filter.mp hmem
    rw [writtenBy_disable, List.filter_eq_self.mpr fun file hfile => decide_eq_true
      (disjoint_writtenBy hfits hp hother (of_decide_eq_true hne) hfile)]
  rw [emitted_eq_writtenBy, emitted_eq_writtenBy, List.filter_flatMap, Round.recording_disable,
    List.flatMap_congr hothers]
  -- of its own files nothing is left, so the processor may be listed or not
  refine flatMap_filter_of_eq_nil fun other _ hother => ?_
  obtain rfl : other = processor := by simpa using hother
  exact List.filter_eq_nil_iff.mpr fun file hfile => by simpa using hfile

/-- The files of the processor come on top of what the others emit. -/
theorem emitted_perm_disable (hp : processor ∈ Round.recording options) :
    (emitted options start).Perm
      (emitted (options.disable processor) start ++ writtenBy options start processor) := by
  have hperm : (Round.recording options).Perm
      ((Round.recording options).filter (· ≠ processor) ++ [processor]) := by
    refine (List.perm_cons_erase hp).trans ?_
    rw [(Round.nodup_recording options).erase_eq_filter]
    refine (List.perm_append_singleton _ _).symm.trans (List.Perm.of_eq ?_)
    exact congrArg (· ++ _) (List.filter_congr fun other _ => by simp [bne, Bool.beq_eq_decide_eq])
  have hsame : ((Round.recording options).filter (· ≠ processor)).flatMap
      (writtenBy options start) = emitted (options.disable processor) start := by
    rw [emitted_eq_writtenBy, Round.recording_disable]
    exact List.flatMap_congr fun other _ => (writtenBy_disable other).symm
  have hfiles := hperm.flatMap_right (writtenBy options start)
  rwa [List.flatMap_append, List.flatMap_singleton, hsame, ← emitted_eq_writtenBy] at hfiles

/-! ## What the merge requests are answered from -/

/-- **It makes no difference to a merge whether the first round waited.** If it had nothing to
wait for, then nothing but markers was emitted. -/
theorem agrees_append_emitted (hr : Ready start) (horigins : OriginsDeclared start)
    (hw : (start.append (emitted options start) true).WellFormed) :
    Agrees (mergeTable options start) (start.append (emitted options start) true) := by
  unfold mergeTable
  cases hwaits : waits options start with
  | true => exact SymbolTable.agrees_of_files rfl hw
  | false =>
      have hextends : (start.append (emitted options start) true).Extends start
          (emitted options start) :=
        ⟨List.Perm.of_eq SymbolTable.files_append, hw, fun _ => inert_of_emitted⟩
      refine hextends.agrees (fun file hfile d hd => ?_) fun d hd hlookup o ho file hfile e he => ?_
      · obtain ⟨source, _, rfl, _⟩ := marker_of_not_waits hr hwaits hfile
        rw [List.mem_singleton.mp hd]
        exact (Contribution.passive_markerOf source).2
      · obtain ⟨x, hx, rfl⟩ := horigins d hd hlookup o ho
        exact (hextends.apart hx hfile he).symm

/-- The names that a processor declares. -/
def namesWrittenBy (options : Options) (start : SymbolTable) (processor : Processor) : List Name :=
  CompilationUnit.names { files := writtenBy options start processor }

/-- Without a processor the requests are answered from a table that lacks its lookups. -/
theorem thins_disable (horigins : OriginsDeclared start) (hplain : processor.WritesPlainLookups)
    (hp : processor ∈ Round.recording options)
    (hw : (start.append (emitted options start) true).WellFormed) :
    Thins (namesWrittenBy options start processor) (start.append (emitted options start) true)
      (start.append (emitted (options.disable processor) start) true) := by
  have hextends : (start.append (emitted options start) true).Extends
      (start.append (emitted (options.disable processor) start) true)
      (writtenBy options start processor) := by
    refine ⟨?_, hw, fun file hfile => inert_of_emitted (writtenBy_subset hp hfile)⟩
    rw [SymbolTable.files_append, SymbolTable.files_append, List.append_assoc]
    exact (emitted_perm_disable hp).append_left _
  refine hextends.thins (fun file hfile d hd => ?_) fun d hd hlookup o ho file hfile e he => ?_
  · obtain ⟨lookup, rfl, _, hsub⟩ := plain_of_writtenBy hplain hfile
    rw [List.mem_singleton.mp hd]
    exact hsub
  · -- wherever a lookup comes from, its origin was declared from the start
    obtain ⟨x, hx, rfl⟩ := horigins.append_emitted hd hlookup ho
    exact (hextends.apart (SymbolTable.mem_declarations_append.mpr (Or.inl hx)) hfile he).symm

theorem wellFormed_disable (hp : processor ∈ Round.recording options)
    (hw : (start.append (emitted options start) true).WellFormed) :
    (start.append (emitted (options.disable processor) start) true).WellFormed := by
  refine hw.of_subperm ?_
  rw [SymbolTable.files_append, SymbolTable.files_append,
    emitted_disable hp (SymbolTable.wellFormed_append_iff.mp hw).2.1]
  exact (List.Sublist.append_left List.filter_sublist _).subperm

/-! ## The answers -/

theorem requests_disable (hplain : processor.WritesPlainLookups) :
    requests (options.disable processor) start = requests options start := by
  unfold requests
  rw [Round.merges_disable]
  rintro rfl
  exact absurd hplain (by decide)

section

variable (hg : GoesThrough options start) (hp : processor ∈ Round.recording options)

include hg hp

/-- What the inputs declare is not written by the processor. -/
theorem notMem_of_declared {x : Declaration} (hx : x ∈ start.declarations) :
    x.name ∉ namesWrittenBy options start processor := by
  intro hname
  obtain ⟨g, hwritten, e, he, hsame⟩ := CompilationUnit.mem_names_iff.mp hname
  obtain ⟨file, hfile, hx⟩ := SymbolTable.mem_declarations_iff.mp hx
  have hapart := (SymbolTable.wellFormed_append_iff.mp (wellFormed_append_emitted hg.fits)).2.2
  exact (hapart file hfile g (writtenBy_subset hp hwritten)).2 x hx e he hsame.symm

/-- Neither is what the requests result in. -/
theorem notMem_of_merged {file : SourceFile} (hfile : file ∈ merged options start)
    {e : Declaration} (he : e ∈ file.declarations) :
    e.name ∉ namesWrittenBy options start processor := by
  intro hname
  obtain ⟨g, hwritten, x, hx, hsame⟩ := CompilationUnit.mem_names_iff.mp hname
  have hapart := (SymbolTable.wellFormed_append_iff.mp hg.fits).2.1
  exact ((List.pairwise_append.mp hapart).2.2 g (writtenBy_subset hp hwritten) file hfile).2
    x hx e he hsame

/-- What is emitted extends none of its lookups. -/
theorem without_of_emitted {file : SourceFile} (h : file ∈ emitted options start) :
    ∀ e ∈ file.declarations, e.without (namesWrittenBy options start processor) = e := by
  refine fun e he => Declaration.without_eq_self fun n hn => ?_
  obtain ⟨x, hx, rfl⟩ := supertypes_of_emitted h he hn
  exact notMem_of_declared hg hp hx

variable (hr : Ready start) (horigins : OriginsDeclared start)
  (hplain : processor.WritesPlainLookups)

include hr horigins hplain

/-- **A request is answered as before**, but that nothing in the answer extends a lookup of the
processor. -/
theorem finalize_disable {r : Declaration} {file : SourceFile}
    (hmerged : file ∈ merged options start)
    (hfile : Merge.finalize (mergeTable options start) r = .ok file) :
    Merge.finalize (mergeTable (options.disable processor) start) r
      = .ok (file.without (namesWrittenBy options start processor)) := by
  have hw := wellFormed_append_emitted hg.fits
  have hw' : (start.append (emitted (options.disable processor) start) true).WellFormed :=
    wellFormed_disable hp hw
  rw [Merge.finalize_eq_ok_iff_of_agrees (agrees_append_emitted hr horigins hw)] at hfile
  rw [Merge.finalize_eq_ok_iff_of_agrees (agrees_append_emitted hr horigins hw')]
  exact Merge.finalize_thins (thins_disable horigins hplain hp hw) hfile fun e he =>
    notMem_of_merged hg hp hmerged he

theorem merged_disable : merged (options.disable processor) start
    = (merged options start).map (·.without (namesWrittenBy options start processor)) := by
  unfold merged written answers
  rw [requests_disable hplain, List.flatMap_map, List.flatMap_map, List.map_flatMap]
  refine List.flatMap_congr fun r hrequest => ?_
  obtain ⟨file, hmerged, hfile⟩ := exists_answer hg.merges hrequest
  rw [ofResult_eq_some_iff.mpr ⟨_, hfile, rfl⟩, ofResult_eq_some_iff.mpr
    ⟨_, finalize_disable hg hp hr horigins hplain hmerged hfile, rfl⟩]
  rfl

/-- **Without the processor the compilation goes through as well.** -/
theorem goesThrough_disable : GoesThrough (options.disable processor) start where
  emits := by
    refine allSucceed_emissions_iff.mpr fun channel hchannel d hd haccepts => ?_
    obtain ⟨other, hother, hchannel⟩ := List.mem_flatMap.mp hchannel
    rw [Round.recording_disable] at hother
    rw [Round.channels_disable] at hchannel
    exact allSucceed_emissions_iff.mp hg.emits channel
      (List.mem_flatMap.mpr ⟨other, List.mem_of_mem_filter hother, hchannel⟩) d hd haccepts
  merges := by
    intro answer hanswer
    obtain ⟨r, hrequest, rfl⟩ := List.mem_map.mp hanswer
    rw [requests_disable hplain] at hrequest
    obtain ⟨file, hmerged, hfile⟩ := exists_answer hg.merges hrequest
    rw [finalize_disable hg hp hr horigins hplain hmerged hfile]
    rfl
  fits := by
    have hemitted := (SymbolTable.wellFormed_append_iff.mp (wellFormed_append_emitted hg.fits)).2.1
    have hfewer : (start.append (emitted (options.disable processor) start
        ++ merged options start) true).WellFormed := by
      refine hg.fits.of_subperm ?_
      rw [SymbolTable.files_append, SymbolTable.files_append, emitted_disable hp hemitted]
      exact ((List.filter_sublist.append_right _).append_left _).subperm
    unfold SymbolTable.WellFormed at hfewer ⊢
    rw [SymbolTable.files_append] at hfewer ⊢
    refine (SourceFile.pairwise_apart_congr ?_).mp hfewer
    rw [merged_disable hg hp hr horigins hplain]
    simp [Function.comp_def, SourceFile.outline_without]

/-- **The generated files without the processor.** -/
theorem files_disable : emitted (options.disable processor) start
      ++ merged (options.disable processor) start =
    ((emitted options start ++ merged options start).filter
      (· ∉ writtenBy options start processor)).map
        (·.without (namesWrittenBy options start processor)) := by
  have hapart := (SymbolTable.wellFormed_append_iff.mp hg.fits).2.1
  obtain ⟨hemitted, _, hacross⟩ := List.pairwise_append.mp hapart
  have hkept : (merged options start).filter (· ∉ writtenBy options start processor)
      = merged options start := List.filter_eq_self.mpr fun file hfile => decide_eq_true fun hmem =>
    (hacross file (writtenBy_subset hp hmem) file hfile).1 rfl
  have hsame : ((emitted options start).filter (· ∉ writtenBy options start processor)).map
      (·.without (namesWrittenBy options start processor))
      = (emitted options start).filter (· ∉ writtenBy options start processor) := by
    refine (List.map_congr_left fun file hfile => ?_).trans (List.map_id' _)
    exact SourceFile.without_eq_self
      (without_of_emitted hg hp (List.mem_of_mem_filter hfile))
  rw [merged_disable hg hp hr horigins hplain, emitted_disable hp hemitted, List.filter_append,
    List.map_append, hkept, hsame]

/-- Among the generated files the aggregates and the merged interfaces extend lookups, and nothing
else does. -/
theorem collects_of_without_ne {file : SourceFile}
    (hfile : file ∈ emitted options start ++ merged options start) {e : Declaration}
    (he : e ∈ file.declarations)
    (hne : e.without (namesWrittenBy options start processor) ≠ e) : Merge.Collects e := by
  have hw := wellFormed_append_emitted hg.fits
  rcases List.mem_append.mp hfile with hfile | hfile
  · exact absurd (without_of_emitted hg hp hfile e he) hne
  · obtain ⟨r, _, hfinalize⟩ := exists_request_of_merged hfile
    rw [Merge.finalize_eq_ok_iff_of_agrees (agrees_append_emitted hr horigins hw)] at hfinalize
    exact Merge.collects_of_without_ne (thins_disable horigins hplain hp hw) hfinalize
      (fun _ => notMem_of_merged hg hp hfile) he hne

end

/-! ## Whole compilations -/

/-- **Switching a processor off removes exactly its lookups.** A compilation that succeeds, run
again without a processor that records interfaces or bindings, succeeds as well if it may take four
rounds. The files of that processor, each of which is a lookup, are then missing among the
generated ones. All others are there, in the same order and unchanged but that nothing extends
these lookups any more; and what extended them were aggregates and merged interfaces only. -/
theorem disabling_removes_its_lookups {inputs : List Input} {n k : Nat}
    (hdistinct : ∀ file ∈ inputFiles inputs, file.DistinctNames)
    (horigins : ∀ d ∈ inputDeclarations inputs, ∀ o, d.origin = some o →
      ∃ e ∈ inputDeclarations inputs, e.name = o)
    (hplain : processor.WritesPlainLookups)
    (henabled : options.isDisabled processor.id = false) (hk : 4 ≤ k)
    (h : compile options n inputs = .ok final) :
    (∀ file ∈ processor.writes options (loadedTable inputs),
      file ∈ final.workspace.output.files ∧
        ∃ lookup, file = .generated lookup ∧ lookup.isLookup = true) ∧
    (∃ final', compile (options.disable processor) k inputs = .ok final' ∧
      final'.workspace.output.files =
        (final.workspace.output.files.filter
          (· ∉ processor.writes options (loadedTable inputs))).map
            (·.without (processor.writtenNames options (loadedTable inputs)))) ∧
    ∀ file ∈ final.workspace.output.files, ∀ d ∈ file.declarations,
      d.without (processor.writtenNames options (loadedTable inputs)) ≠ d → Merge.Collects d := by
  have hs := succeeded_of_compile hdistinct h
  have hr := hs.ready
  have hg := hs.goesThrough
  have hp : processor ∈ Round.recording options := by
    refine List.mem_filter.mpr ⟨?_, by rw [henabled]; rfl⟩
    rcases hplain with rfl | rfl | rfl <;> decide
  have hdeclared : OriginsDeclared (loadedTable inputs) := by
    intro d hd hlookup o ho
    obtain ⟨e, he, hname⟩ := horigins d (isLookup_of_loaded hd hlookup) o ho
    exact ⟨e, inputDeclarations_subset he, hname⟩
  have hfits := (SymbolTable.wellFormed_append_iff.mp (wellFormed_append_emitted hg.fits)).2.1
  unfold Processor.writtenNames
  rw [writes_eq hr hp hg.emits hfits]
  refine ⟨fun file hfile => ?_, ?_, fun file hfile e he => ?_⟩
  · obtain ⟨lookup, rfl, hlookup, _⟩ := plain_of_writtenBy hplain hfile
    refine ⟨?_, lookup, rfl, hlookup⟩
    rw [hs.concluded.files]
    exact List.mem_append_left _ (writtenBy_subset hp hfile)
  · have hgoes := goesThrough_disable hg hp hr hdeclared hplain
    obtain ⟨final', hfinal⟩ := (compile_ok_iff hdistinct hk).mpr hgoes
    refine ⟨final', hfinal, ?_⟩
    rw [(succeeded_of_compile hdistinct hfinal).concluded.files, hs.concluded.files]
    exact files_disable hg hp hr hdeclared hplain
  · rw [hs.concluded.files] at hfile
    exact collects_of_without_ne hg hp hr hdeclared hplain hfile he

end Session

namespace Sample

open Contribution

/-- What the greeter is recorded as. -/
def greeterLookup : Declaration :=
  { emptyLookup greeter.name.flatten greeter
      { marker := appScope, source := .argument contributesTo } with
    supertypes := [greeter.name] }

theorem writes_contributesTo : Processor.writes .contributesTo {} (Session.loadedTable inputs)
    = [.generated greeterLookup] := by
  decide

end Sample

namespace Session

/-- Without the processor the sample has the same files but for the lookup of the greeter, and
nothing extends it any more. -/
theorem greeter_is_left_out : ∃ final, compile {} 4 Sample.inputs = .ok final ∧
    .generated Sample.greeterLookup ∈ final.workspace.output.files ∧
    ∃ final', compile (Options.disable {} .contributesTo) 4 Sample.inputs = .ok final' ∧
      final'.workspace.output.files =
        (final.workspace.output.files.filter (· ∉ [.generated Sample.greeterLookup])).map
          (·.without [Sample.greeterLookup.name]) := by
  obtain ⟨final, hfinal⟩ := Sample.compiles
  have horigins : ∀ d ∈ inputDeclarations Sample.inputs, d.origin = none := by decide
  obtain ⟨hwritten, ⟨final', hfinal', hfiles⟩, _⟩ := disabling_removes_its_lookups
    Sample.distinct (fun d hd o ho => by rw [horigins d hd] at ho; exact nomatch ho)
    (Or.inl rfl : Processor.WritesPlainLookups .contributesTo) rfl (Nat.le_refl 4) hfinal
  unfold Processor.writtenNames at hfiles
  rw [Sample.writes_contributesTo] at hwritten hfiles
  exact ⟨final, hfinal, (hwritten _ List.mem_cons_self).1, final', hfinal', hfiles⟩

end Session

end ScopeMerge
