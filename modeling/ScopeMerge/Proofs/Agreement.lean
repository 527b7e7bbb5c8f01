import ScopeMerge.Merge.Sweep
import ScopeMerge.Proofs.Lookup
import ScopeMerge.Proofs.Scoping

/-!
# Tables that a merge can hardly tell apart

A merge reads five things off a table: what the annotation classes say, where the
origins of lookups lead, which factories a subcomponent has, what a factory is
nested in, and which lookups there are. `SameLinks` says that two tables give the
same answers to the first four.

* `Agrees` says the same of the lookups. The main result,
  `finalize_eq_ok_iff_of_agrees`, is that a merge request then succeeds in both
  tables or in neither, with the same file.
* `Thins` says that the second table lists all but some lookups of the first one,
  and none of those that it lacks stands for a subcomponent. A merge request that
  succeeds in the first table then succeeds in the second one as well, and the
  file is the same but for the names of these lookups (`finalize_thins`).

The two tables need not hold the same files in the same order, and one may hold
more than the other.
-/

namespace ScopeMerge

open SubcomponentShape

/-- In two tables declarations are read alike and linked alike. -/
structure SameLinks (t t' : SymbolTable) : Prop where
  /-- Annotation classes say the same. -/
  classes : ∀ n, SameClass t t' n
  /-- The origins of lookups lead to the same declarations. -/
  origins : ∀ d, d ∈ t.declarations ∨ d ∈ t'.declarations →
    Merge.origin? t d = Merge.origin? t' d
  /-- The same factories are nested in a declaration, in whatever order. -/
  factories : ∀ d, (factories t d).Perm (factories t' d)
  /-- A factory is nested in the same subcomponent. -/
  enclosing : ∀ d, enclosing t d = enclosing t' d

namespace SameLinks

variable {t t' : SymbolTable}

theorem symm (h : SameLinks t t') : SameLinks t' t where
  classes := fun n => (h.classes n).symm
  origins := fun d hd => (h.origins d hd.symm).symm
  factories := fun d => (h.factories d).symm
  enclosing := fun d => (h.enclosing d).symm

theorem reading (h : SameLinks t t') (d : Declaration) : SameReading t t' d :=
  fun usage _ => h.classes usage.type

theorem shape (h : SameLinks t t') (d : Declaration) : SameShape t t' d :=
  ⟨h.reading d, h.factories d⟩

end SameLinks

/-- Two tables look the same to a merge. -/
structure Agrees (t t' : SymbolTable) : Prop extends SameLinks t t' where
  /-- The same lookups are visible. -/
  lookups : Merge.lookups t = Merge.lookups t'

theorem Agrees.symm {t t' : SymbolTable} (h : Agrees t t') : Agrees t' t :=
  ⟨h.toSameLinks.symm, h.lookups.symm⟩

/-- The second table lists all but some lookups of the first one. What it lacks has no part in a
subcomponent. -/
structure Thins (gone : List Name) (t t' : SymbolTable) : Prop extends SameLinks t t' where
  lookups : Merge.lookups t' = (Merge.lookups t).filter fun d => d.name ∉ gone
  /-- No lookup that is lacking stands for a subcomponent. -/
  plain : ∀ d ∈ Merge.lookups t, d.name ∈ gone → d.isSubcomponentLookup = false
  /-- Nothing under a name that is lacking is a subcomponent or a factory. -/
  uninvolved : ∀ n ∈ gone, ∀ d, t.find? n = some d →
    d.isAnnotatedWith Vocabulary.contributesSubcomponent = false ∧
      d.isAnnotatedWith Vocabulary.subcomponentFactory = false

/-- Tables that agree list the same lookups, so none is lacking. -/
theorem Agrees.thins {t t' : SymbolTable} (h : Agrees t t') : Thins [] t t' where
  toSameLinks := h.toSameLinks
  lookups := by simp [h.lookups]
  plain := fun _ _ hd => nomatch hd
  uninvolved := fun _ hn => nomatch hn

/-! ## Leaving names out of supertypes -/

/-- The declaration, extending none of some names. -/
def Declaration.without (gone : List Name) (d : Declaration) : Declaration :=
  { d with supertypes := d.supertypes.filter (· ∉ gone) }

/-- The file, with declarations that extend none of some names. -/
def SourceFile.without (gone : List Name) (file : SourceFile) : SourceFile :=
  { file with declarations := file.declarations.map (·.without gone) }

/-- The final components, with declarations that extend none of some names. -/
def FinalComponents.without (gone : List Name) (result : FinalComponents) : FinalComponents :=
  { result with declarations := result.declarations.map (·.without gone) }

theorem Declaration.without_eq_self {gone : List Name} {d : Declaration}
    (h : ∀ n ∈ d.supertypes, n ∉ gone) : d.without gone = d := by
  unfold without
  rw [List.filter_eq_self.mpr fun n hn => decide_eq_true (h n hn)]

theorem SourceFile.without_eq_self {gone : List Name} {file : SourceFile}
    (h : ∀ d ∈ file.declarations, d.without gone = d) : file.without gone = file := by
  unfold without
  rw [List.map_congr_left h, List.map_id']

/-- The supertypes of an interface that extends lookups and factories, where no factory is left
out. -/
theorem Declaration.filter_names_append {gone : List Name} {contributions : List Declaration}
    {factories : List Name} (hf : ∀ n ∈ factories, n ∉ gone) :
    (contributions.map (·.name) ++ factories).filter (· ∉ gone)
      = (contributions.filter fun d => d.name ∉ gone).map (·.name) ++ factories := by
  rw [List.filter_append, List.filter_map,
    List.filter_eq_self.mpr fun n hn => decide_eq_true (hf n hn)]
  rfl

theorem SourceFile.without_nil (file : SourceFile) : file.without [] = file :=
  without_eq_self fun _ _ => Declaration.without_eq_self fun _ _ => List.not_mem_nil

namespace Merge

variable {t t' : SymbolTable}

/-! ## Selecting -/

theorem chainFrom_eq (t : SymbolTable) (visited : List Name) (d : Declaration) :
    chainFrom t visited d =
      match origin? t d with
      | none => [d]
      | some origin =>
        if origin.name ∈ visited then [d]
        else d :: chainFrom t (origin.name :: visited) origin := by
  rw [chainFrom]
  split
  · next h => rw [h]
  · next origin h =>
    rw [h]
    dsimp only
    split <;> rfl

theorem chainFrom_congr (h : SameLinks t t') (visited : List Name) (d : Declaration)
    (hd : d ∈ t.declarations ∨ d ∈ t'.declarations) :
    chainFrom t visited d = chainFrom t' visited d := by
  induction visited, d using chainFrom.induct t with
  | case1 visited d hnone =>
      rw [chainFrom_eq t, chainFrom_eq t', ← h.origins d hd, hnone]
  | case2 visited d origin horigin hvisited =>
      rw [chainFrom_eq t, chainFrom_eq t', ← h.origins d hd, horigin]
      dsimp only
      rw [if_pos hvisited, if_pos hvisited]
  | case3 visited d origin horigin hvisited ih =>
      rw [chainFrom_eq t, chainFrom_eq t', ← h.origins d hd, horigin]
      dsimp only
      rw [if_neg hvisited, if_neg hvisited, ih (Or.inl (mem_of_origin? horigin))]

theorem originChain_congr (h : SameLinks t t') {d : Declaration}
    (hd : d ∈ t.declarations ∨ d ∈ t'.declarations) : originChain t d = originChain t' d :=
  chainFrom_congr h _ d hd

theorem chainScope?_congr {d : Declaration} (h : SameReading t t' d) :
    chainScope? t d = chainScope? t' d := by
  unfold chainScope?
  cases husage : d.annotation? Vocabulary.contributionScope with
  | none =>
      unfold Scope.resolve?
      dsimp only
      rw [Scope.resolve_congr h]
  | some usage => exact Scope.ofArgument?_congr (h usage (List.mem_of_find?_eq_some husage))

theorem mem_declarations_of_lookup {d : Declaration} (h : d ∈ lookups t) : d ∈ t.declarations := by
  have hvisible : d ∈ t.visible :=
    List.mem_of_mem_filter (List.mem_mergeSort.mp (List.mem_of_mem_filter h))
  rw [SymbolTable.visible_eq, List.mem_flatMap] at hvisible
  obtain ⟨file, hfile, hd⟩ := hvisible
  have hlast := SymbolTable.lastNamed?_eq_some (mem_lastOfEachName_iff.mp hd)
  exact SymbolTable.mem_declarations_iff.mpr ⟨file, hfile, hlast.1⟩

theorem mem_declarations_of_select {d : Declaration} {scope : Name} {exclusions : List Name}
    (h : d ∈ select t scope exclusions) : d ∈ t.declarations :=
  mem_declarations_of_lookup (List.mem_of_mem_filter h)

theorem selects_congr (h : SameLinks t t') (scope : Name) (exclusions : List Name)
    {d : Declaration} (hd : d ∈ t.declarations) :
    selects t scope exclusions d = selects t' scope exclusions d := by
  unfold selects reachesScope
  rw [originChain_congr h (Or.inl hd)]
  dsimp only
  congr 3
  funext e
  rw [chainScope?_congr (h.reading e)]

/-- A merge selects what it selected before, except for what is lacking. -/
theorem select_thins {gone : List Name} (h : Thins gone t t') (scope : Name)
    (exclusions : List Name) :
    select t' scope exclusions = (select t scope exclusions).filter fun d => d.name ∉ gone := by
  unfold select
  rw [h.lookups, List.filter_filter, List.filter_filter]
  refine List.filter_congr fun d hd => ?_
  rw [selects_congr h.toSameLinks _ _ (mem_declarations_of_lookup hd), Bool.and_comm]

end Merge

/-! ## Final components -/

namespace FinalComponents

open Checking

variable {t t' : SymbolTable}

theorem shapeOf_eq_ok_iff {lookup : Declaration} {shape : SubcomponentShape} :
    shapeOf t lookup = .ok shape ↔ ∃ factory, (Merge.originChain t lookup).getLast? = some factory ∧
      factory.isSubcomponentLookup = false ∧ ofFactory t factory = .ok shape := by
  unfold shapeOf
  split
  · next factory hfactory =>
    obtain ⟨hlast, hplain⟩ := Option.filter_eq_some_iff.mp hfactory
    refine ⟨fun h => ⟨factory, hlast, by simpa using hplain, h⟩, ?_⟩
    rintro ⟨other, hother, _, h⟩
    obtain rfl := Option.some.inj (hlast.symm.trans hother)
    exact h
  · next hnone =>
    refine ⟨nofun, ?_⟩
    rintro ⟨factory, hlast, hplain, _⟩
    simp [hlast, hplain] at hnone

theorem ofSubcomponent_of_shapeOf {lookup : Declaration} {shape : SubcomponentShape}
    (h : shapeOf t lookup = .ok shape) : ofSubcomponent t shape.subcomponent = .ok shape := by
  obtain ⟨_, _, _, hfactory⟩ := shapeOf_eq_ok_iff.mp h
  exact (ofFactory_eq_ok_iff.mp hfactory).2.1

theorem shapeOf_transport (h : SameLinks t t') {lookup : Declaration} {shape : SubcomponentShape}
    (hd : lookup ∈ t.declarations ∨ lookup ∈ t'.declarations)
    (hs : shapeOf t lookup = .ok shape) : shapeOf t' lookup = .ok shape := by
  obtain ⟨factory, hlast, hplain, hfactory⟩ := shapeOf_eq_ok_iff.mp hs
  obtain ⟨henclosing, hshape, hname⟩ := ofFactory_eq_ok_iff.mp hfactory
  rw [Merge.originChain_congr h hd] at hlast
  rw [h.enclosing] at henclosing
  exact shapeOf_eq_ok_iff.mpr ⟨factory, hlast, hplain, ofFactory_eq_ok_iff.mpr
    ⟨henclosing, ofSubcomponent_transport (h.shape _) hshape, hname⟩⟩

/-- Neither a subcomponent nor its factory is lacking. -/
theorem notMem_of_shapeOf {gone : List Name} (h : Thins gone t t') {lookup : Declaration}
    {shape : SubcomponentShape} (hs : shapeOf t lookup = .ok shape) :
    shape.subcomponent.name ∉ gone ∧ shape.factory.name ∉ gone := by
  obtain ⟨factory, _, _, hfactory⟩ := shapeOf_eq_ok_iff.mp hs
  obtain ⟨henclosing, hshape, _⟩ := ofFactory_eq_ok_iff.mp hfactory
  obtain ⟨parent, _, hfind, hannotated⟩ := enclosing_eq_ok_iff.mp henclosing
  obtain ⟨⟨e, _, _, hfindFactory⟩, hmarked⟩ :=
    mem_factories_iff.mp (factory_mem_of_ofSubcomponent hshape)
  refine ⟨fun hgone => ?_, fun hgone => ?_⟩
  · rw [(SymbolTable.find?_eq_some hfind).2] at hgone
    rw [(h.uninvolved _ hgone _ hfind).1] at hannotated
    cases hannotated
  · rw [(SymbolTable.find?_eq_some hfindFactory).2] at hgone
    rw [(h.uninvolved _ hgone _ hfindFactory).2] at hmarked
    cases hmarked

section

variable {package : String} {lineage : List Name} {parent : Name} {lookup : Declaration}
  {rest : List Declaration} {shape : SubcomponentShape} {result : FinalComponents}

theorem generate_cons_of_other (hsub : lookup.isSubcomponentLookup = false) :
    generate t package lineage parent (lookup :: rest)
      = generate t package lineage parent rest := by
  rw [generate, if_neg (by simp [hsub])]

theorem generate_cons_of_malformed {error : MergeError}
    (hsub : lookup.isSubcomponentLookup = true) (hshape : shapeOf t lookup = .error error) :
    generate t package lineage parent (lookup :: rest) = .error error := by
  rw [generate, if_pos hsub]
  split
  · next found hfound =>
    rw [hshape] at hfound
    obtain rfl := Except.error.inj hfound
    rfl
  · next found hfound =>
    rw [hshape] at hfound
    cases hfound

theorem generate_cons_of_cycle (hsub : lookup.isSubcomponentLookup = true)
    (hshape : shapeOf t lookup = .ok shape) (hcycle : shape.subcomponent.name ∈ lineage) :
    generate t package lineage parent (lookup :: rest)
      = .error (.subcomponentCycle shape.subcomponent.name
          (lineage ++ [shape.subcomponent.name])) := by
  rw [generate, if_pos hsub]
  split
  · next found hfound =>
    rw [hshape] at hfound
    cases hfound
  · next found hfound =>
    rw [hshape] at hfound
    obtain rfl := Except.ok.inj hfound
    rw [dif_pos hcycle]

theorem generate_cons_of_new (hsub : lookup.isSubcomponentLookup = true)
    (hshape : shapeOf t lookup = .ok shape) (hnew : shape.subcomponent.name ∉ lineage) :
    generate t package lineage parent (lookup :: rest) = do
      let nested ← generate t package (lineage ++ [shape.subcomponent.name])
        (finalName parent shape) (ownContributions t shape)
      let others ← generate t package lineage parent rest
      return {
        factories := factoryName (finalName parent shape) :: others.factories
        declarations :=
          component package parent shape :: factory package parent shape ::
            merged package parent shape (ownContributions t shape) nested.factories ::
            (nested.declarations ++ others.declarations) } := by
  rw [generate, if_pos hsub]
  split
  · next found hfound =>
    rw [hshape] at hfound
    cases hfound
  · next found hfound =>
    rw [hshape] at hfound
    obtain rfl := Except.ok.inj hfound
    rw [dif_neg hnew]

/-- One step of `generate`, as a condition for success. -/
theorem generate_cons_eq_ok_iff (hsub : lookup.isSubcomponentLookup = true) :
    generate t package lineage parent (lookup :: rest) = .ok result ↔
      ∃ shape nested others, shapeOf t lookup = .ok shape ∧
        shape.subcomponent.name ∉ lineage ∧
        generate t package (lineage ++ [shape.subcomponent.name]) (finalName parent shape)
          (ownContributions t shape) = .ok nested ∧
        generate t package lineage parent rest = .ok others ∧
        result =
          { factories := factoryName (finalName parent shape) :: others.factories
            declarations :=
              component package parent shape :: factory package parent shape ::
                merged package parent shape (ownContributions t shape) nested.factories ::
                  (nested.declarations ++ others.declarations) } := by
  refine ⟨?_, ?_⟩
  · intro h
    -- the shape, then the cycle check, then the two recursive calls
    cases hshape : shapeOf t lookup with
    | error error =>
        rw [generate_cons_of_malformed hsub hshape] at h
        cases h
    | ok shape =>
        by_cases hcycle : shape.subcomponent.name ∈ lineage
        · rw [generate_cons_of_cycle hsub hshape hcycle] at h
          cases h
        · rw [generate_cons_of_new hsub hshape hcycle] at h
          simp only [bind_eq_ok, pure_eq_ok] at h
          obtain ⟨nested, hnested, others, hothers, rfl⟩ := h
          exact ⟨shape, nested, others, rfl, hcycle, hnested, hothers, rfl⟩
  · intro h
    obtain ⟨shape, nested, others, hshape, hnew, hnested, hothers, rfl⟩ := h
    rw [generate_cons_of_new hsub hshape hnew]
    simp only [bind_eq_ok, pure_eq_ok]
    exact ⟨nested, hnested, others, hothers, rfl⟩

end

/-! ### What is generated without some lookups -/

section

variable {gone : List Name} {package : String} {parent : Name} {shape : SubcomponentShape}

theorem component_without (hs : shape.subcomponent.name ∉ gone)
    (hmerged : mergedName (finalName parent shape) ∉ gone) :
    (component package parent shape).without gone = component package parent shape := by
  simp [Declaration.without, component, hs, hmerged]

theorem factory_without (hf : shape.factory.name ∉ gone) :
    (factory package parent shape).without gone = factory package parent shape := by
  simp [Declaration.without, factory, hf]

theorem merged_without {contributions : List Declaration} {factories : List Name}
    (hf : ∀ n ∈ factories, n ∉ gone) :
    (merged package parent shape contributions factories).without gone
      = merged package parent shape (contributions.filter fun d => d.name ∉ gone) factories := by
  simp only [Declaration.without, merged, Declaration.filter_names_append hf]

end

/-- The factories that a merged interface extends are among the declarations generated with it. -/
theorem exists_of_mem_factories {package : String} (lineage : List Name) (parent : Name)
    (contributions : List Declaration) {result : FinalComponents}
    (h : generate t package lineage parent contributions = .ok result) :
    ∀ n ∈ result.factories, ∃ d ∈ result.declarations, d.name = n := by
  induction contributions generalizing result with
  | nil =>
      rw [generate] at h
      obtain rfl := Except.ok.inj h
      intro n hn
      cases hn
  | cons lookup rest ih =>
      cases hsub : lookup.isSubcomponentLookup with
      | false =>
          rw [generate_cons_of_other hsub] at h
          exact ih h
      | true =>
          obtain ⟨shape, nested, others, _, _, _, hothers, rfl⟩ :=
            (generate_cons_eq_ok_iff hsub).mp h
          intro n hn
          rcases List.mem_cons.mp hn with rfl | hn
          · exact ⟨factory package parent shape, by simp, rfl⟩
          · obtain ⟨d, hd, hname⟩ := ih hothers n hn
            exact ⟨d, by simp [hd], hname⟩

/-- **Final components are generated as before**, but that the merged interfaces do not extend
what is lacking. -/
theorem generate_thins {gone : List Name} (h : Thins gone t t') {package : String}
    (lineage : List Name) (parent : Name) (contributions : List Declaration)
    (hc : contributions ⊆ Merge.lookups t) {result : FinalComponents}
    (hg : generate t package lineage parent contributions = .ok result)
    (hnames : ∀ d ∈ result.declarations, d.name ∉ gone) :
    generate t' package lineage parent (contributions.filter fun d => d.name ∉ gone)
      = .ok (result.without gone) := by
  -- the recursion of `generate` itself: into the subcomponent, and on to the other lookups
  induction lineage, parent, contributions using generate.induct t generalizing result with
  | case1 lineage parent =>
      rw [generate] at hg
      obtain rfl := Except.ok.inj hg
      rw [List.filter_nil, generate]
      rfl
  | case2 lineage parent lookup rest hsub error herror =>
      obtain ⟨shape, _, _, hshape, _⟩ := (generate_cons_eq_ok_iff hsub).mp hg
      rw [herror] at hshape
      cases hshape
  | case3 lineage parent lookup rest hsub shape hshape hcycle =>
      obtain ⟨found, _, _, hfound, hnot, _⟩ := (generate_cons_eq_ok_iff hsub).mp hg
      rw [hshape] at hfound
      obtain rfl := Except.ok.inj hfound
      exact absurd hcycle hnot
  | case4 lineage parent lookup rest hsub shape hshape path hcycle final contributions
      ihnested =>
      rename_i ihothers
      obtain ⟨found, nested, others, hfound, hnot, hnested, hothers, rfl⟩ :=
        (generate_cons_eq_ok_iff hsub).mp hg
      rw [hshape] at hfound
      obtain rfl := Except.ok.inj hfound
      have hlookup : lookup ∈ Merge.lookups t := hc List.mem_cons_self
      have hkept : lookup.name ∉ gone := fun hgone => by
        rw [h.plain lookup hlookup hgone] at hsub
        cases hsub
      have hown : ownContributions t' shape
          = (ownContributions t shape).filter fun d => d.name ∉ gone := Merge.select_thins h _ _
      -- what is generated here, inside and beside goes by other names than what is lacking
      have hinside : ∀ d ∈ nested.declarations, d.name ∉ gone := fun d hd =>
        hnames d (by simp [hd])
      have hbeside : ∀ d ∈ others.declarations, d.name ∉ gone := fun d hd =>
        hnames d (by simp [hd])
      have hmerged : mergedName (finalName parent shape) ∉ gone :=
        hnames (merged package parent shape (ownContributions t shape) nested.factories) (by simp)
      have hfactories : ∀ n ∈ nested.factories, n ∉ gone := by
        intro n hn
        obtain ⟨d, hd, rfl⟩ := exists_of_mem_factories _ _ _ hnested n hn
        exact hinside d hd
      obtain ⟨hsubcomponent, hfactory⟩ := notMem_of_shapeOf h hshape
      rw [List.filter_cons_of_pos (by simpa using hkept)]
      refine (generate_cons_eq_ok_iff hsub).mpr ⟨shape, nested.without gone, others.without gone,
        shapeOf_transport h.toSameLinks (Or.inl (Merge.mem_declarations_of_lookup hlookup)) hshape,
        hnot, ?_, ihothers (fun d hd => hc (List.mem_cons_of_mem _ hd)) hothers hbeside, ?_⟩
      · rw [hown]
        exact ihnested (fun _ => List.mem_of_mem_filter) hnested hinside
      · simp only [FinalComponents.without, List.map_cons, List.map_append,
          component_without hsubcomponent hmerged, factory_without hfactory,
          merged_without hfactories, hown]
  | case5 lineage parent lookup rest hsub ih =>
      have hother : lookup.isSubcomponentLookup = false := by simpa using hsub
      rw [generate_cons_of_other hother] at hg
      have hrest := ih (fun d hd => hc (List.mem_cons_of_mem _ hd)) hg hnames
      by_cases hgone : lookup.name ∈ gone
      · rwa [List.filter_cons_of_neg (by simpa using hgone)]
      · rwa [List.filter_cons_of_pos (by simpa using hgone), generate_cons_of_other hother]

end FinalComponents

/-! ## Whole merges -/

namespace Merge

open Checking

variable {t t' : SymbolTable}

theorem finalize_eq_ok_iff {d : Declaration} {file : SourceFile} :
    finalize t d = .ok file ↔
      ∃ request finals, MergeRequest.parse t d = .ok request ∧
        FinalComponents.generate t d.package [] d.name
          (select t request.scope.marker request.exclusions) = .ok finals ∧
        file = .generated
          (aggregate request (select t request.scope.marker request.exclusions) finals.factories)
          finals.declarations := by
  simp only [finalize, bind_eq_ok, pure_eq_ok]
  refine ⟨?_, ?_⟩
  · intro h
    obtain ⟨request, hrequest, finals, hfinals, rfl⟩ := h
    exact ⟨request, finals, hrequest, hfinals, rfl⟩
  · intro h
    obtain ⟨request, finals, hrequest, hfinals, rfl⟩ := h
    exact ⟨request, hrequest, finals, hfinals, rfl⟩

theorem aggregate_without {gone : List Name} {request : MergeRequest}
    {contributions : List Declaration} {factories : List Name} (hf : ∀ n ∈ factories, n ∉ gone) :
    (aggregate request contributions factories).without gone
      = aggregate request (contributions.filter fun d => d.name ∉ gone) factories := by
  simp only [Declaration.without, aggregate, Declaration.filter_names_append hf]

/-- **A merge request is answered as before**, but that nothing extends what is lacking. -/
theorem finalize_thins {gone : List Name} (h : Thins gone t t') {d : Declaration}
    {file : SourceFile} (hf : finalize t d = .ok file)
    (hnames : ∀ e ∈ file.declarations, e.name ∉ gone) :
    finalize t' d = .ok (file.without gone) := by
  obtain ⟨request, finals, hrequest, hfinals, rfl⟩ := finalize_eq_ok_iff.mp hf
  have hinside : ∀ e ∈ finals.declarations, e.name ∉ gone := fun e he =>
    hnames e (List.mem_cons_of_mem _ he)
  have hfactories : ∀ n ∈ finals.factories, n ∉ gone := by
    intro n hn
    obtain ⟨e, he, rfl⟩ := FinalComponents.exists_of_mem_factories _ _ _ hfinals n hn
    exact hinside e he
  refine finalize_eq_ok_iff.mpr ⟨request, finals.without gone, ?_, ?_, ?_⟩
  · rw [← MergeRequest.parse_congr (h.reading d)]
    exact hrequest
  · rw [select_thins h]
    exact FinalComponents.generate_thins h _ _ _ (fun _ => List.mem_of_mem_filter) hfinals hinside
  · rw [select_thins h, FinalComponents.without, ← aggregate_without hfactories]
    rfl

theorem finalize_transport (h : Agrees t t') {d : Declaration} {file : SourceFile}
    (hf : finalize t d = .ok file) : finalize t' d = .ok file := by
  have hsame := finalize_thins h.thins hf fun _ _ => List.not_mem_nil
  rwa [SourceFile.without_nil] at hsame

/-- **A merge depends on nothing but what `Agrees` compares.** -/
theorem finalize_eq_ok_iff_of_agrees (h : Agrees t t') {d : Declaration} {file : SourceFile} :
    finalize t d = .ok file ↔ finalize t' d = .ok file :=
  ⟨finalize_transport h, finalize_transport h.symm⟩

end Merge

end ScopeMerge
