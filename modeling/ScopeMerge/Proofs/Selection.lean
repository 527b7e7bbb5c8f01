import ScopeMerge.Proofs.Generated

/-!
# What a merge finds behind a lookup

A merge does not trust what a lookup says about its contributor. It follows the lookup
to the declaration that it stands for and reads the scope there again. For a lookup that
a processor has written both readings agree (`chainScope?_of_resolve`), the chain has two
members and no more (`originChain_of_standsFor`), and so whether the lookup is selected
depends on the contributor alone (`selects_iff`). A factory is found the same way, and
with it the shape of its subcomponent.
-/

namespace ScopeMerge

open Vocabulary

/-! ## Reading a scope back -/

namespace Scope

variable {t : SymbolTable} {d : Declaration} {scope : Scope} {usage : AnnotationUsage}

/-- An annotation that has to give a scope gives the scope of the declaration. -/
theorem ofArgument?_of_resolve (h : resolve t d = .ok scope) (hu : usage ∈ d.annotations)
    (htakes : takesScope t usage = true) (hmust : mayOmitScope t usage = false) :
    ofArgument? t usage = some scope.marker := by
  have hcontributing : usage ∈ contributing t d := List.mem_filter.mpr ⟨hu, htakes⟩
  unfold resolve at h
  dsimp only at h
  split at h
  · exact nomatch h
  cases hlacking : lacking? t d with
  | some annotationType => rw [hlacking] at h; exact nomatch h
  | none =>
      rw [hlacking] at h
      dsimp only at h
      -- no required scope is lacking, so this usage gives one
      obtain ⟨marker, hmarker⟩ : ∃ marker, ofArgument? t usage = some marker := by
        cases hargument : ofArgument? t usage with
        | some marker => exact ⟨marker, rfl⟩
        | none =>
            have hnone := List.find?_eq_none.mp (Option.map_eq_none_iff.mp hlacking) usage
              hcontributing
            simp [hargument, hmust] at hnone
      have hexplicit : { marker, source := .argument usage.type } ∈ explicit t d :=
        List.mem_filterMap.mpr ⟨usage, hcontributing, by rw [hmarker]; rfl⟩
      rw [hmarker]
      cases hgiven : explicit t d with
      | nil => rw [hgiven] at hexplicit; exact nomatch hexplicit
      | cons first rest =>
          rw [hgiven] at h hexplicit
          dsimp only at h
          split at h
          · exact nomatch h
          · next hagree =>
            rw [not_or] at hagree
            -- all explicit scopes agree, and the first one is the answer
            have hfirst : scope = first := by
              unfold ofExplicit at h
              split at h
              · exact (Except.ok.inj h).symm
              · split at h <;> exact nomatch h
            rw [hfirst]
            by_contra hne
            exact hagree.2 (length_eraseDups_gt_one_iff.mpr
              ⟨_, List.mem_map_of_mem hexplicit, _, List.mem_map_of_mem List.mem_cons_self,
                fun heq => hne (congrArg some heq)⟩)

end Scope

namespace Merge

variable {t : SymbolTable} {lookup contributor : Declaration} {scope : Scope}

theorem chainScope?_of_resolve (hb : t.SeesBuiltins)
    (h : Scope.resolve t contributor = .ok scope) :
    chainScope? t contributor = some scope.marker := by
  unfold chainScope?
  cases husage : contributor.annotation? contributionScope with
  | none =>
      unfold Scope.resolve?
      dsimp only
      rw [h]
      rfl
  | some usage =>
      -- the record of a scope is an explicit scope like any other
      have htype : usage.type = contributionScope := by simpa using List.find?_some husage
      refine Scope.ofArgument?_of_resolve h (List.mem_of_find?_eq_some husage) ?_ ?_
      · unfold Scope.takesScope Scope.isMarker SymbolTable.parameter?
        rw [htype, SymbolTable.builtin_not_scopeMarker hb List.mem_cons_self,
          SymbolTable.parametersOf_contributionScope hb]
        rfl
      · unfold Scope.mayOmitScope SymbolTable.parameter?
        rw [htype, SymbolTable.parametersOf_contributionScope hb]
        rfl

theorem chainScope?_of_standsFor (h : lookup.StandsFor contributor scope) :
    chainScope? t lookup = some scope.marker := by
  unfold chainScope?
  rw [h.annotation?_contributionScope]
  rfl

/-- The origin chain of a lookup for a declaration that is no lookup has these two members. -/
theorem originChain_of_standsFor (h : lookup.StandsFor contributor scope)
    (hfind : t.find? contributor.name = some contributor)
    (hplain : contributor.isLookup = false) (hne : contributor.name ≠ lookup.name) :
    originChain t lookup = [lookup, contributor] := by
  have horigin : origin? t lookup = some contributor := by
    unfold origin?
    rw [h.isLookup, if_pos rfl, h.origin]
    exact hfind
  have hend : origin? t contributor = none := by
    unfold origin?
    rw [hplain]
    rfl
  unfold originChain
  rw [chainFrom_eq, horigin]
  dsimp only
  rw [if_neg (by simpa using hne), chainFrom_eq, hend]

/-- **A merge selects a lookup by the scope of the declaration it stands for**, unless that
declaration, the lookup, or the subcomponent around a factory is excluded. -/
theorem selects_iff (hb : t.SeesBuiltins) (h : lookup.StandsFor contributor scope)
    (hfind : t.find? contributor.name = some contributor)
    (hplain : contributor.isLookup = false) (hne : contributor.name ≠ lookup.name)
    (hscope : Scope.resolve t contributor = .ok scope) (marker : Name) (exclusions : List Name) :
    selects t marker exclusions lookup = true ↔
      scope.marker = marker ∧ lookup.name ∉ exclusions ∧ contributor.name ∉ exclusions ∧
        (lookup.isSubcomponentLookup = true →
          ∀ parent, contributor.parent = some parent → parent ∉ exclusions) := by
  unfold selects reachesScope inExcludedSubcomponent
  dsimp only
  rw [originChain_of_standsFor h hfind hplain hne, List.any_cons, List.any_cons, List.any_nil,
    chainScope?_of_standsFor h, chainScope?_of_resolve hb hscope]
  cases hsub : lookup.isSubcomponentLookup <;> cases hparent : contributor.parent <;>
    simp [hparent, and_assoc]

/-! ## Lookups in a larger table -/

/-- Lookups that come after the built-in files, in order, are listed as they come. -/
theorem lookups_append_loadedTable {inputs : List Session.Input} {fs : List SourceFile}
    {ds : List Declaration}
    (hnew : (((Session.inputFiles inputs ++ fs).flatMap fun file =>
          lastOfEachName file.declarations).filter fun d =>
        d.package = lookupNamespace ∧ d.parent = none) = ds ∧
      (ds.Pairwise fun a b => a.name.le b.name) ∧ ∀ d ∈ ds, d.isLookup = true) :
    lookups ((Session.loadedTable inputs).append fs true) = ds := by
  obtain ⟨hfilter, hordered, hlookups⟩ := hnew
  have hbuiltin : ((SymbolTable.initial.files.flatMap fun file =>
      lastOfEachName file.declarations).filter fun d =>
        d.package = lookupNamespace ∧ d.parent = none) = [] := by decide
  unfold lookups SymbolTable.inNamespace
  rw [SymbolTable.visible_eq, SymbolTable.files_append, Session.files_loadedTable,
    List.append_assoc, List.flatMap_append, List.filter_append, hbuiltin, hfilter,
    List.nil_append, List.mergeSort_of_pairwise hordered, List.filter_eq_self.mpr hlookups]

end Merge

/-- The shape of a subcomponent is read from the factory that its lookup stands for. -/
theorem FinalComponents.shapeOf_of_standsFor {t : SymbolTable} {lookup factory : Declaration}
    {scope : Scope} (h : lookup.StandsFor factory scope)
    (hfind : t.find? factory.name = some factory) (hplain : factory.isLookup = false)
    (hne : factory.name ≠ lookup.name) :
    shapeOf t lookup = SubcomponentShape.ofFactory t factory := by
  have hsub : factory.isSubcomponentLookup = false := by
    unfold Declaration.isSubcomponentLookup
    rw [hplain, Bool.false_and]
  unfold shapeOf
  rw [Merge.originChain_of_standsFor h hfind hplain hne, List.getLast?_cons_cons,
    List.getLast?_singleton, Option.filter_some, hsub]
  rfl

end ScopeMerge
