import ScopeMerge.Proofs.Correspondence

/-!
# Which merge a contribution ends up in

From a source to an aggregate a contribution is read twice. A recording processor
resolves its scope and writes the scope on a lookup; a merge reads the lookup
back, follows it to the declaration it stands for, and resolves the scope of that
declaration again. The end-to-end statement is that neither step loses anything:
the aggregate of a merge request extends a lookup exactly when the contributing
declaration has the scope of the request and nothing about it is excluded.

What a contribution is recorded as does not depend on the merges; here the lookup
that was written for a `Contributed` is followed to the aggregates. What to look
for in them is the name of its `Record`.
-/

namespace ScopeMerge

open Vocabulary Attempt

namespace Session

open Contribution Contributed

variable {options : Options} {start : SymbolTable} {final : State}

/-! ## Contributions -/

/-- **Every contribution of a source is recorded.** -/
theorem exists_recorded (hr : Ready start)
    (hdistinct : ∀ file ∈ start.files, file.DistinctNames)
    (hon : ∀ processor ∈ Processor.all, options.isDisabled processor.id = false)
    (hg : AllSucceed (emissions options start)) {c : Contributed}
    (hc : c.Among start.localDeclarations) :
    ∃ record scope lookup, Recorded options start c record scope lookup := by
  obtain ⟨lookup, _, record, scope, hrecorded⟩ := exists_of_forall₂_left
    (forall₂_emitted hr hg hdistinct hon) (mem_instances_iff.mpr hc)
  exact ⟨record, scope, lookup, hrecorded⟩

/-- A contribution makes the first round wait. -/
theorem waits_of_among (hr : Ready start)
    (hon : options.isDisabled Processor.legacy.id = false) {c : Contributed}
    (hc : c.Among start.localDeclarations) : waits options start = true := by
  have hlegacy : Registry.legacy options = [legacyContributesBinding, legacyContributesTo] := by
    unfold Registry.legacy
    rw [hon]
    rfl
  -- all five annotations need no registration
  have hwaits : ∀ {d : Declaration} {n : Name}, d ∈ start.localDeclarations →
      d.isAnnotatedWith n = true →
      n ∈ [contributesTo, contributesBinding, contributesSubcomponent, legacyContributesTo,
        legacyContributesBinding] → waits options start = true := by
    intro d n hd hannotated hn
    refine waits_of_contribution hr hd ?_ hannotated
    rw [hlegacy]
    revert n
    unfold Registry.builtin
    simp only [List.mem_cons, List.mem_append, List.not_mem_nil, or_false]
    tauto
  cases c with
  | interface d =>
      obtain ⟨hd, hannotated | hannotated⟩ := hc <;> exact hwaits hd hannotated (by simp)
  | binding d usage =>
      obtain ⟨hd, hu, htype⟩ := hc
      refine hwaits hd (List.any_eq_true.mpr ⟨usage, hu, by simp⟩ :
        d.isAnnotatedWith usage.type = true) ?_
      rcases htype with htype | htype <;> rw [htype] <;> simp
  | subcomponent d => exact hwaits hc.1 hc.2 (by simp)

/-! ## Aggregates -/

/-- A lookup that was emitted is there when the merge requests are answered. -/
theorem mem_lookups_of_emitted
    (hfits : (start.append (emitted options start ++ merged options start) true).WellFormed)
    (hwaits : waits options start = true) {lookup contributor : Declaration} {scope : Scope}
    (hlookup : .generated lookup ∈ emitted options start)
    (hstands : lookup.StandsFor contributor scope) :
    lookup ∈ Merge.lookups (mergeTable options start) := by
  have hw := wellFormed_mergeTable (wellFormed_append_emitted hfits)
  have hfile : .generated lookup ∈ (mergeTable options start).files := by
    rw [files_mergeTable, hwaits]
    exact List.mem_append_right _ hlookup
  refine (Merge.mem_lookups_iff hw).mpr ⟨?_, hstands.isLookup, hstands.parent⟩
  exact SymbolTable.find?_of_mem hw hfile (List.nodup_singleton lookup.name) List.mem_cons_self

/-- **An aggregate extends a lookup exactly when its request selects it.** -/
theorem mem_supertypes_iff
    (hfits : (start.append (emitted options start ++ merged options start) true).WellFormed)
    (hwaits : waits options start = true) {request : MergeRequest} {factories : List Name}
    {scope : Name} {exclusions : List Name} {others : List Declaration}
    (hmerged : .generated (Merge.aggregate request
      (Merge.select (mergeTable options start) scope exclusions) factories) others
        ∈ merged options start)
    (hfactories : ∀ n ∈ factories, ∃ d ∈ others, d.name = n)
    {lookup contributor : Declaration} {own : Scope}
    (hlookup : .generated lookup ∈ emitted options start)
    (hstands : lookup.StandsFor contributor own) :
    lookup.name ∈ (Merge.aggregate request
        (Merge.select (mergeTable options start) scope exclusions) factories).supertypes ↔
      Merge.selects (mergeTable options start) scope exclusions lookup = true := by
  have hlisted := mem_lookups_of_emitted hfits hwaits hlookup hstands
  -- the other supertypes are factories, which the file of the aggregate declares itself
  have hnone : lookup.name ∉ factories := by
    intro hin
    obtain ⟨d, hd, hname⟩ := hfactories _ hin
    obtain ⟨_, hgenerated, _⟩ := SymbolTable.wellFormed_append_iff.mp hfits
    have hapart := (List.pairwise_append.mp hgenerated).2.2 _ hlookup _ hmerged
    exact hapart.2 lookup List.mem_cons_self d (List.mem_cons_of_mem _ hd) hname.symm
  unfold Merge.aggregate
  dsimp only
  rw [List.mem_append, or_iff_left hnone]
  exact Merge.name_mem_select_iff (wellFormed_mergeTable (wellFormed_append_emitted hfits)) hlisted

/-- A merge selects the lookup of a contribution by the scope of the contribution. -/
theorem Recorded.selects_iff (hr : Ready start)
    (hfits : (start.append (emitted options start ++ merged options start) true).WellFormed)
    {c : Contributed} {record : Record} {scope : Scope} {lookup : Declaration}
    (h : Recorded options start c record scope lookup)
    (hplain : record.contributor.isLookup = false) (marker : Name) (exclusions : List Name) :
    Merge.selects (mergeTable options start) marker exclusions lookup = true ↔
      scope.marker = marker ∧ record.lookup ∉ exclusions ∧
        record.contributor.name ∉ exclusions ∧
        ∀ s, record.enclosing? = some s → s ∉ exclusions := by
  have hextends := mergeTable_extends (wellFormed_append_emitted hfits)
  -- a generated file does not declare a name of a source
  have hne : record.contributor.name ≠ lookup.name := by
    obtain ⟨file, hfile, hmem⟩ := SymbolTable.mem_declarations_iff.mp
      (SymbolTable.find?_eq_some h.visible).1
    have hapart := (SymbolTable.wellFormed_append_iff.mp hfits).2.2 file hfile _
      (List.mem_append_left _ h.isWritten)
    exact hapart.2 _ hmem lookup List.mem_cons_self
  have hresolved : Scope.resolve (mergeTable options start) record.contributor = .ok scope := by
    rw [← Scope.resolve_congr (hextends.sameReading _)]
    exact h.resolved
  rw [Merge.selects_iff (seesBuiltins_mergeTable hr) h.stands (hextends.find?_mono h.visible)
    hplain hne hresolved, h.named, h.subcomponent]
  have henclosing : (record.enclosing?.isSome = true →
      ∀ parent, record.contributor.parent = some parent → parent ∉ exclusions) ↔
      ∀ s, record.enclosing? = some s → s ∉ exclusions := by
    cases he : record.enclosing? with
    | none => simp
    | some s =>
        rw [h.parent s he]
        simp
  rw [henclosing]

/-- **What becomes of a contribution.** It has a lookup in the last table, and its record and its
scope are read there as they were read when the lookup was written. -/
theorem Succeeded.exists_recorded (h : Succeeded options start final)
    (hdistinct : ∀ file ∈ start.files, file.DistinctNames)
    (hon : ∀ processor ∈ Processor.all, options.isDisabled processor.id = false) {c : Contributed}
    (hc : c.Among start.localDeclarations) :
    ∃ record scope lookup, Recorded options start c record scope lookup ∧
      c.record? final.table = some record ∧
      Scope.resolve final.table record.contributor = .ok scope ∧
      lookup ∈ Merge.lookups final.table := by
  have hfits := h.goesThrough.fits
  have hwaits := waits_of_among h.ready (hon .legacy (by decide)) hc
  obtain ⟨record, scope, lookup, hrecorded⟩ :=
    Session.exists_recorded h.ready hdistinct hon h.goesThrough.emits hc
  refine ⟨record, scope, lookup, hrecorded,
    record?_of_extends h.extends_start hrecorded.understood, ?_, ?_⟩
  · rw [← Scope.resolve_congr (h.extends_start.sameReading _)]
    exact hrecorded.resolved
  · rw [← h.lookups_eq]
    exact mem_lookups_of_emitted hfits hwaits hrecorded.isWritten hrecorded.stands

/-- **Every contribution reaches exactly the merges of its scope.** In a successful compilation
with all processors on, every contribution of a source is recorded by a lookup, and the aggregate
of a merge request among the sources extends this lookup exactly when the contributing declaration,
which for a subcomponent is its factory, has the scope of the request, and the request excludes
neither the lookup, nor the declaration, nor the subcomponent around the factory. -/
theorem contributions_reach_their_merges {inputs : List Input} {n : Nat}
    (hdistinct : ∀ file ∈ inputFiles inputs, file.DistinctNames)
    (hon : ∀ processor ∈ Processor.all, options.isDisabled processor.id = false)
    (h : compile options n inputs = .ok final) :
    ∀ r ∈ sourceDeclarations inputs, r.isAnnotatedWith mergeComponent = true →
      ∃ aggregate others own, .generated aggregate others ∈ final.workspace.output.files ∧
        aggregate.name = r.aggregateName ∧ Scope.resolve final.table r = .ok own ∧
        ∀ c : Contributed, c.Among (sourceDeclarations inputs) →
          ∃ record scope, c.record? final.table = some record ∧
            Scope.resolve final.table record.contributor = .ok scope ∧
            (∃ lookup ∈ Merge.lookups final.table, lookup.name = record.lookup ∧
              lookup.origin = some record.contributor.name) ∧
            (record.contributor.isLookup = false →
              (record.lookup ∈ aggregate.supertypes ↔
                scope.marker = own.marker ∧
                  record.lookup ∉ MergeRequest.exclusionsOf final.table r ∧
                  record.contributor.name ∉ MergeRequest.exclusionsOf final.table r ∧
                  ∀ s, record.enclosing? = some s →
                    s ∉ MergeRequest.exclusionsOf final.table r)) := by
  intro r hr hannotated
  have hs := succeeded_of_compile hdistinct h
  have hfits := hs.goesThrough.fits
  obtain ⟨file, hmerged, hfile, _, hfinalize⟩ :=
    hs.exists_file_of_request (hon .mergeComponent (by decide)) hr hannotated
  obtain ⟨request, finals, hrequest, hfinals, rfl⟩ := Merge.finalize_eq_ok_iff.mp hfinalize
  obtain ⟨hown, hexclusions⟩ := MergeRequest.parse_ok hrequest
  -- the request says the same in the last table as in the one it was answered from
  have hlater := hs.extends_mergeTable.sameReading r
  rw [MergeRequest.exclusionsOf_congr hlater] at hexclusions
  rw [Scope.resolve_congr hlater] at hown
  refine ⟨Merge.aggregate request (Merge.select (mergeTable options (loadedTable inputs))
    request.scope.marker request.exclusions) finals.factories, finals.declarations,
    request.scope, hfile, Merge.name_aggregate hrequest _ _, hown, ?_⟩
  intro c hc
  rw [← localDeclarations_loadedTable] at hc
  have hwaits := waits_of_among hs.ready (hon .legacy (by decide)) hc
  obtain ⟨record, scope, lookup, hrecorded, hunderstood, hresolved, hlisted⟩ :=
    hs.exists_recorded (distinctNames_loadedTable hdistinct) hon hc
  refine ⟨record, scope, hunderstood, hresolved,
    ⟨lookup, hlisted, hrecorded.named, hrecorded.stands.origin⟩, fun hplain => ?_⟩
  rw [← hrecorded.named, mem_supertypes_iff hfits hwaits hmerged
    (FinalComponents.exists_of_mem_factories _ _ _ hfinals) hrecorded.isWritten
    hrecorded.stands, hrecorded.selects_iff hs.ready hfits hplain, ← hexclusions,
    hrecorded.named]

/-- In the sample, the interface of the library reaches the component of the application. -/
theorem greeter_reaches_component :
    ∃ final, compile {} 4 Sample.inputs = .ok final ∧
      ∃ aggregate others, .generated aggregate others ∈ final.workspace.output.files ∧
        aggregate.name = Sample.component.aggregateName ∧
          lookupName Sample.greeter.name ∈ aggregate.supertypes := by
  obtain ⟨final, hfinal⟩ := Sample.compiles
  obtain ⟨aggregate, others, own, hfile, hname, hown, hall⟩ :=
    contributions_reach_their_merges Sample.distinct (by decide) hfinal Sample.component
      (by decide) (by decide)
  obtain ⟨record, scope, hrecord, hscope, _, hreaches⟩ :=
    hall (.interface Sample.greeter) ⟨by decide, Or.inl (by decide)⟩
  obtain rfl := Option.some.inj hrecord
  -- the last table reads scopes and exclusions as the first one does
  have hreading := (succeeded_of_compile Sample.distinct hfinal).extends_start.sameReading
  rw [← Scope.resolve_congr (hreading _)] at hown hscope
  have hgreeter : Scope.resolve (loadedTable Sample.inputs) Sample.greeter =
      .ok { marker := Sample.appScope, source := .argument contributesTo } := by decide
  have hcomponent : Scope.resolve (loadedTable Sample.inputs) Sample.component =
      .ok { marker := Sample.appScope, source := .argument mergeComponent } := by decide
  rw [hgreeter] at hscope
  rw [hcomponent] at hown
  obtain rfl := Except.ok.inj hscope
  obtain rfl := Except.ok.inj hown
  have hnone : MergeRequest.exclusionsOf final.table Sample.component = [] := by
    rw [← MergeRequest.exclusionsOf_congr (hreading _)]
    exact MergeRequest.exclusionsOf_eq_of_list (by decide) List.mergeSort_nil
  refine ⟨final, hfinal, aggregate, others, hfile, hname, (hreaches (by decide)).mpr ?_⟩
  rw [hnone]
  exact ⟨rfl, nofun, nofun, nofun⟩

end Session

end ScopeMerge
