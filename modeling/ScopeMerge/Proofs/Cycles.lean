import ScopeMerge.Proofs.Nesting

/-!
# Cycles among subcomponents

`generate` follows a graph that it discovers by resolving scopes, and nothing in the
table keeps that graph from running in a circle. Two facts make it safe to follow.

* Every call of `generate` inside another one has one more visible subcomponent on its
  lineage, so calls are nested no deeper than there are visible declarations.
  `generateWithin` is `generate` with a bound on the nesting, and
  `generateWithin_eq` says that so large a bound is never felt.
* A circle is met as a subcomponent that is on the lineage already.
  `revisit_of_error` finds the path that leads to it in the branch that failed;
  `not_revisits_of_acyclic` says that a nesting without cycles, which is what every
  success is, has no such path in any branch.
-/

namespace ScopeMerge

/-! ## Visible names that are left -/

namespace SymbolTable

variable {table : SymbolTable}

/-- How many visible declarations have a name that is not in a list. -/
def unvisited (table : SymbolTable) (names : List Name) : Nat :=
  table.visible.countP fun d => decide (d.name ∉ names)

theorem unvisited_le (table : SymbolTable) (names : List Name) :
    table.unvisited names ≤ table.visible.length :=
  List.countP_le_length

theorem exists_mem_lastOfEachName {ds : List Declaration} {d : Declaration} (h : d ∈ ds) :
    ∃ e ∈ lastOfEachName ds, e.name = d.name := by
  cases hlast : lastNamed? d.name ds with
  | none => exact absurd rfl (lastNamed?_eq_none_iff.mp hlast d h)
  | some e =>
      obtain ⟨_, hname⟩ := lastNamed?_eq_some hlast
      exact ⟨e, mem_lastOfEachName_iff.mpr (hname.symm ▸ hlast), hname⟩

/-- A declaration may be hidden, but its name is not. -/
theorem exists_mem_visible {d : Declaration} (h : d ∈ table.declarations) :
    ∃ e ∈ table.visible, e.name = d.name := by
  obtain ⟨file, hfile, hd⟩ := mem_declarations_iff.mp h
  obtain ⟨e, he, hname⟩ := exists_mem_lastOfEachName hd
  rw [visible_eq]
  exact ⟨e, List.mem_flatMap.mpr ⟨file, hfile, he⟩, hname⟩

/-- Visiting one more declaration leaves fewer. -/
theorem unvisited_lt {names : List Name} {d : Declaration} (hd : d ∈ table.declarations)
    (hnew : d.name ∉ names) : table.unvisited (names ++ [d.name]) < table.unvisited names := by
  obtain ⟨e, he, hname⟩ := exists_mem_visible hd
  unfold unvisited
  refine countP_lt (fun x hx => ?_) he ?_ ?_
  · simp only [decide_eq_true_eq, List.mem_append, not_or] at hx ⊢
    exact hx.1
  · rw [hname]
    exact decide_eq_true hnew
  · rw [hname]
    simp

end SymbolTable

namespace FinalComponents

variable {t : SymbolTable} {package : String} {lineage : List Name} {parent : Name}
  {contributions : List Declaration}

/-! ## A bound on the recursion -/

/-- `generate` with room for so many calls inside each other, the outermost one included. There is
no answer when the room does not suffice. -/
def generateWithin (t : SymbolTable) (package : String) :
    Nat → List Name → Name → List Declaration → Option (Except MergeError FinalComponents)
  | 0, _, _, _ => none
  | _ + 1, _, _, [] => some (.ok {})
  | room + 1, lineage, parent, lookup :: rest =>
    if lookup.isSubcomponentLookup then
      match shapeOf t lookup with
      | .error error => some (.error error)
      | .ok shape =>
        let path := lineage ++ [shape.subcomponent.name]
        if shape.subcomponent.name ∈ lineage then
          some (.error (.subcomponentCycle shape.subcomponent.name path))
        else do
          let final := finalName parent shape
          let contributions := ownContributions t shape
          match ← generateWithin t package room path final contributions with
          | .error error => return .error error
          | .ok nested =>
            match ← generateWithin t package (room + 1) lineage parent rest with
            | .error error => return .error error
            | .ok others =>
              return .ok {
                factories := factoryName final :: others.factories
                declarations :=
                  component package parent shape :: factory package parent shape ::
                    merged package parent shape contributions nested.factories ::
                    (nested.declarations ++ others.declarations) }
    else generateWithin t package (room + 1) lineage parent rest
termination_by room _ _ contributions => (room, contributions.length)

/-- **The room that `generate` needs** is one call for each visible declaration that is not on the
lineage, and one more. -/
theorem generateWithin_eq {room : Nat} (lineage : List Name) (parent : Name)
    (contributions : List Declaration) (hroom : t.unvisited lineage < room) :
    generateWithin t package room lineage parent contributions
      = some (generate t package lineage parent contributions) := by
  -- only the call for the contributions of a subcomponent uses up room, and it visits one
  -- more declaration
  induction lineage, parent, contributions using generate.induct t generalizing room with
  | case1 lineage parent =>
      obtain ⟨room, rfl⟩ := Nat.exists_eq_add_one_of_ne_zero (by omega : room ≠ 0)
      rw [generateWithin, generate]
  | case2 lineage parent lookup rest hsub error hshape =>
      obtain ⟨room, rfl⟩ := Nat.exists_eq_add_one_of_ne_zero (by omega : room ≠ 0)
      rw [generateWithin, if_pos hsub, hshape, generate_cons_of_malformed hsub hshape]
  | case3 lineage parent lookup rest hsub shape hshape hcycle =>
      obtain ⟨room, rfl⟩ := Nat.exists_eq_add_one_of_ne_zero (by omega : room ≠ 0)
      rw [generateWithin, if_pos hsub, hshape, generate_cons_of_cycle hsub hshape hcycle]
      dsimp only
      rw [if_pos hcycle]
  | case4 lineage parent lookup rest hsub shape hshape path hnew final contributions ihnested =>
      rename_i ihothers
      obtain ⟨room, rfl⟩ := Nat.exists_eq_add_one_of_ne_zero (by omega : room ≠ 0)
      have hfewer : t.unvisited path < t.unvisited lineage :=
        SymbolTable.unvisited_lt (mem_of_shapeOf hshape) hnew
      have hnested : generateWithin t package room path final contributions = _ :=
        ihnested (by omega)
      have hothers := ihothers hroom
      rw [generateWithin, if_pos hsub, hshape, generate_cons_of_new hsub hshape hnew]
      dsimp only
      rw [if_neg hnew, hnested, hothers]
      cases generate t package path final contributions with
      | error error => rfl
      | ok nested =>
          cases generate t package lineage parent rest with
          | error error => rfl
          | ok others => rfl
  | case5 lineage parent lookup rest hsub ih =>
      have hother : lookup.isSubcomponentLookup = false := by simpa using hsub
      obtain ⟨room, rfl⟩ := Nat.exists_eq_add_one_of_ne_zero (by omega : room ≠ 0)
      rw [generateWithin, if_neg hsub, generate_cons_of_other hother]
      exact ih hroom

/-! ## What is met on the way -/

/-- The lookups that are met from some contributions on, by resolving the scopes of the
subcomponents among them. -/
inductive Met (t : SymbolTable) (contributions : List Declaration) : Declaration → Prop where
  | listed {lookup : Declaration} : lookup ∈ contributions → Met t contributions lookup
  | selected {lookup inner : Declaration} {shape : SubcomponentShape} :
      Met t contributions lookup → lookup.isSubcomponentLookup = true →
      shapeOf t lookup = .ok shape → inner ∈ ownContributions t shape →
      Met t contributions inner

/-- Every subcomponent that is met has a shape. -/
def WellShaped (t : SymbolTable) (contributions : List Declaration) : Prop :=
  ∀ lookup, Met t contributions lookup → lookup.isSubcomponentLookup = true →
    ∃ shape, shapeOf t lookup = .ok shape

theorem Met.of_subset {others : List Declaration} (hsub : contributions ⊆ others)
    (h : Met t contributions lookup) : Met t others lookup := by
  induction h with
  | listed hmem => exact .listed (hsub hmem)
  | selected _ hsubcomponent hshape hinner ih => exact .selected ih hsubcomponent hshape hinner

theorem Met.of_own (hmet : Met t contributions lookup)
    (hsub : lookup.isSubcomponentLookup = true) (hshape : shapeOf t lookup = .ok shape)
    {inner : Declaration} (h : Met t (ownContributions t shape) inner) :
    Met t contributions inner := by
  induction h with
  | listed hmem => exact .selected hmet hsub hshape hmem
  | selected _ hsubcomponent hinner hmem ih => exact .selected ih hsubcomponent hinner hmem

theorem WellShaped.tail (h : WellShaped t (lookup :: rest)) : WellShaped t rest :=
  fun inner hmet => h inner (hmet.of_subset (List.subset_cons_self _ _))

theorem WellShaped.own (h : WellShaped t (lookup :: rest))
    (hsub : lookup.isSubcomponentLookup = true) (hshape : shapeOf t lookup = .ok shape) :
    WellShaped t (ownContributions t shape) :=
  fun inner hmet => h inner (Met.of_own (.listed List.mem_cons_self) hsub hshape hmet)

/-! ## Paths that revisit a subcomponent -/

/-- The subcomponents on some steps, by name. -/
def visited (steps : List Descent) : List Name :=
  steps.map fun step => step.shape.subcomponent.name

/-- The subcomponent that a path leads to. -/
def Path.target (path : Path) : Name :=
  path.last.shape.subcomponent.name

/-- A path that leads to a subcomponent that is on it already, or on the lineage it starts from. -/
def Path.Revisits (lineage : List Name) (path : Path) : Prop :=
  path.target ∈ lineage ++ visited path.above

theorem Path.visited_steps (path : Path) :
    visited path.steps = visited path.above ++ [path.target] := by
  simp [visited, steps, target]

theorem Path.revisits_under {step : Descent} {path : Path} :
    (path.under step).Revisits lineage ↔
      path.Revisits (lineage ++ [step.shape.subcomponent.name]) := by
  simp [Revisits, under, visited, target, List.append_assoc]

/-- In a nesting without cycles no path revisits a subcomponent. -/
theorem not_revisits_of_acyclic {nesting : Nesting} (h : nesting.Acyclic lineage) :
    ∀ path ∈ nesting.paths, ¬ path.Revisits lineage := by
  induction nesting generalizing lineage with
  | empty => exact fun path hpath => nomatch hpath
  | node step inside beside ihinside ihbeside =>
      obtain ⟨hnew, hinside, hbeside⟩ := h
      intro path hpath
      rcases List.mem_cons.mp hpath with rfl | hpath
      · simpa [Path.Revisits, visited, Path.target] using hnew
      rcases List.mem_append.mp hpath with hpath | hpath
      · obtain ⟨inner, hinner, rfl⟩ := List.mem_map.mp hpath
        rw [Path.revisits_under]
        exact ihinside hinside inner hinner
      · exact ihbeside hbeside path hpath

theorem descends_cons_of_descends {path : Path} (h : Descends t rest path.steps) :
    Descends t (lookup :: rest) path.steps := by
  cases hsteps : path.steps with
  | nil => exact trivial
  | cons step steps =>
      rw [hsteps] at h
      obtain ⟨hstep, hrest⟩ := h
      obtain ⟨hmem, hsub, hshape⟩ := mem_descents_iff.mp hstep
      exact ⟨mem_descents_iff.mpr ⟨List.mem_cons_of_mem _ hmem, hsub, hshape⟩, hrest⟩

/-- **What fails on well-shaped subcomponents is a path that revisits one**, and the error spells
it out. -/
theorem revisit_of_error {error : MergeError} (lineage : List Name) (parent : Name)
    (contributions : List Declaration) (hshaped : WellShaped t contributions)
    (h : generate t package lineage parent contributions = .error error) :
    ∃ path : Path, Descends t contributions path.steps ∧ path.Revisits lineage ∧
      error = .subcomponentCycle path.target (lineage ++ visited path.steps) := by
  -- the branch that fails: this subcomponent, one below it, or one beside it
  induction lineage, parent, contributions using generate.induct t with
  | case1 lineage parent =>
      rw [generate] at h
      cases h
  | case2 lineage parent lookup rest hsub found hfound =>
      obtain ⟨shape, hshape⟩ := hshaped lookup (.listed List.mem_cons_self) hsub
      rw [hfound] at hshape
      cases hshape
  | case3 lineage parent lookup rest hsub shape hshape hcycle =>
      rw [generate_cons_of_cycle hsub hshape hcycle] at h
      obtain rfl := Except.error.inj h
      refine ⟨⟨[], ⟨lookup, shape⟩⟩, ⟨?_, trivial⟩, List.mem_append_left _ hcycle, rfl⟩
      exact mem_descents_iff.mpr ⟨List.mem_cons_self, hsub, hshape⟩
  | case4 lineage parent lookup rest hsub shape hshape path hnew final contributions ihnested =>
      rename_i ihothers
      rw [generate_cons_of_new hsub hshape hnew] at h
      cases hnested : generate t package path final contributions with
      | error inner =>
          rw [hnested] at h
          obtain rfl := Except.error.inj h
          obtain ⟨below, hdescends, hrevisits, herror⟩ :=
            ihnested (hshaped.own hsub hshape) hnested
          refine ⟨below.under ⟨lookup, shape⟩, ⟨?_, hdescends⟩,
            Path.revisits_under.mpr hrevisits, ?_⟩
          · exact mem_descents_iff.mpr ⟨List.mem_cons_self, hsub, hshape⟩
          · rw [herror]
            simp [path, Path.under, Path.target, Path.steps, visited, List.append_assoc]
      | ok nested =>
          rw [hnested] at h
          cases hothers : generate t package lineage parent rest with
          | error other =>
              rw [hothers] at h
              obtain rfl := Except.error.inj h
              obtain ⟨beside, hdescends, hrevisits, herror⟩ := ihothers hshaped.tail hothers
              exact ⟨beside, descends_cons_of_descends hdescends, hrevisits, herror⟩
          | ok others =>
              rw [hothers] at h
              cases h
  | case5 lineage parent lookup rest hsub ih =>
      have hother : lookup.isSubcomponentLookup = false := by simpa using hsub
      rw [generate_cons_of_other hother] at h
      obtain ⟨path, hdescends, hrevisits, herror⟩ := ih hshaped.tail h
      exact ⟨path, descends_cons_of_descends hdescends, hrevisits, herror⟩

/-- What succeeds has no path that revisits a subcomponent. -/
theorem not_revisits_of_generate {result : FinalComponents}
    (h : generate t package lineage parent contributions = .ok result) {path : Path}
    (hpath : Descends t contributions path.steps) : ¬ path.Revisits lineage := by
  obtain ⟨nesting, hunfolds, hacyclic, _⟩ := generate_eq_ok_iff.mp h
  exact not_revisits_of_acyclic hacyclic path (hunfolds.mem_paths_iff.mpr hpath)

/-- **Finalizing ends, and fails exactly on cycles.** It makes no more calls inside each other than
there are visible declarations, and one more. Where every subcomponent that is met has a shape, it
fails exactly when some path from the contributions revisits a subcomponent; the error then lists
the lineage and such a path, up to the subcomponent that is on the list already. -/
theorem generate_detects_cycles (t : SymbolTable) (package : String) (lineage : List Name)
    (parent : Name) (contributions : List Declaration) :
    generateWithin t package (t.visible.length + 1) lineage parent contributions
        = some (generate t package lineage parent contributions) ∧
      (WellShaped t contributions →
        ((∃ error, generate t package lineage parent contributions = .error error) ↔
          ∃ path : Path, Descends t contributions path.steps ∧ path.Revisits lineage) ∧
        ∀ error, generate t package lineage parent contributions = .error error →
          ∃ (path : Path) (names : List Name), Descends t contributions path.steps ∧
            names = lineage ++ visited path.steps ∧
            error = .subcomponentCycle path.target names ∧
            names.getLast? = some path.target ∧ path.target ∈ names.dropLast) := by
  refine ⟨generateWithin_eq _ _ _ ?_, fun hshaped => ⟨⟨?_, ?_⟩, ?_⟩⟩
  · have hleft := t.unvisited_le lineage
    omega
  · rintro ⟨error, h⟩
    obtain ⟨path, hdescends, hrevisits, _⟩ := revisit_of_error _ _ _ hshaped h
    exact ⟨path, hdescends, hrevisits⟩
  · rintro ⟨path, hdescends, hrevisits⟩
    cases h : generate t package lineage parent contributions with
    | error error => exact ⟨error, rfl⟩
    | ok result => exact absurd hrevisits (not_revisits_of_generate h hdescends)
  · intro error h
    obtain ⟨path, hdescends, hrevisits, rfl⟩ := revisit_of_error _ _ _ hshaped h
    have hnames : lineage ++ visited path.steps
        = (lineage ++ visited path.above) ++ [path.target] := by
      rw [path.visited_steps, List.append_assoc]
    refine ⟨path, _, hdescends, rfl, rfl, ?_, ?_⟩
    · rw [hnames, List.getLast?_concat]
    · rw [hnames, List.dropLast_concat]
      exact hrevisits

end FinalComponents

/-! ## A sample

Two subcomponents, each contributed to the scope of the other. -/

namespace Sample

open Vocabulary FinalComponents

/-- The factory of the login, contributed to what is inside the login. -/
def returningFactory : Declaration := factoryOf login detailScope

def returningLookup : Declaration := lookupOf "ComAppLoginFactory" returningFactory detailScope

def circle : List Session.Input :=
  [.sources { files :=
      [{ id := ⟨"Detail.kt"⟩, declarations := [detail, detailFactory] },
        { id := ⟨"Login.kt"⟩, declarations := [login, returningFactory] }] }]

def circleTable : SymbolTable :=
  (Session.loadedTable circle).append [.generated detailLookup, .generated returningLookup] true

theorem offers_circle : Offers circleTable "ComAppLoginFactory" login detailScope loginScope ∧
    Offers circleTable "ComAppDetailFactory" detail loginScope detailScope := by
  decide

/-- The login selects the detail, and the detail selects the login. -/
theorem select_circle : Merge.select circleTable loginScope [] = [detailLookup] ∧
    Merge.select circleTable detailScope [] = [returningLookup] := by
  have hb : circleTable.SeesBuiltins := (Session.seesBuiltins_loadedTable circle).append _ _
  have hlookups : Merge.lookups circleTable = [detailLookup, returningLookup] :=
    Merge.lookups_append_loadedTable (by decide)
  have hlogin : ∀ marker,
      Merge.selects circleTable marker [] returningLookup = decide (detailScope = marker) :=
    offers_circle.1.selects_eq hb
  have hdetail : ∀ marker,
      Merge.selects circleTable marker [] detailLookup = decide (loginScope = marker) :=
    offers_circle.2.selects_eq hb
  have hne : loginScope ≠ detailScope := by decide
  unfold Merge.select
  rw [hlookups]
  simp [hlogin, hdetail, hne, hne.symm]

/-- The login, checked. -/
def returningShape : SubcomponentShape := shapeOn login detailScope loginScope

theorem shapeOf_returning : shapeOf circleTable returningLookup = .ok returningShape :=
  offers_circle.1.shapeOf_eq

theorem shapeOf_detail : shapeOf circleTable detailLookup = .ok detailShape :=
  offers_circle.2.shapeOf_eq

theorem wellShaped_circle : WellShaped circleTable [returningLookup] := by
  have hmet : ∀ lookup, Met circleTable [returningLookup] lookup →
      lookup = returningLookup ∨ lookup = detailLookup := by
    intro lookup h
    induction h with
    | listed hmem => exact Or.inl (List.mem_singleton.mp hmem)
    | @selected lookup inner shape _ _ hshape hinner ih =>
        rcases ih with rfl | rfl
        · rw [shapeOf_returning] at hshape
          obtain rfl := Except.ok.inj hshape
          have hselect : ownContributions circleTable returningShape = [detailLookup] :=
            select_circle.1
          rw [hselect] at hinner
          exact Or.inr (List.mem_singleton.mp hinner)
        · rw [shapeOf_detail] at hshape
          obtain rfl := Except.ok.inj hshape
          have hselect : ownContributions circleTable detailShape = [returningLookup] :=
            select_circle.2
          rw [hselect] at hinner
          exact Or.inl (List.mem_singleton.mp hinner)
  intro lookup h _
  rcases hmet lookup h with rfl | rfl
  · exact ⟨_, shapeOf_returning⟩
  · exact ⟨_, shapeOf_detail⟩

/-- The login inside the detail inside the login is a cycle. -/
theorem generate_circle (package : String) (parent : Name) :
    generate circleTable package [] parent [returningLookup]
      = .error (.subcomponentCycle login.name [login.name, detail.name, login.name]) := by
  have hsub : returningLookup.isSubcomponentLookup = true := isSubcomponentLookup_lookupOf _ _ _
  have hinner : detailLookup.isSubcomponentLookup = true := isSubcomponentLookup_lookupOf _ _ _
  have hlogin : ownContributions circleTable returningShape = [detailLookup] := select_circle.1
  have hdetail : ownContributions circleTable detailShape = [returningLookup] := select_circle.2
  have hnested : generate circleTable package ([] ++ [login.name])
      (finalName parent returningShape) [detailLookup]
      = .error (.subcomponentCycle login.name [login.name, detail.name, login.name]) := by
    rw [generate_cons_of_new hinner shapeOf_detail (by decide), hdetail,
      generate_cons_of_cycle hsub shapeOf_returning (by decide)]
    rfl
  have hlineage : returningShape.subcomponent.name = login.name := rfl
  rw [generate_cons_of_new hsub shapeOf_returning List.not_mem_nil, hlogin, hlineage, hnested]
  rfl

end Sample

open FinalComponents in
/-- The circle is found within one call for each visible declaration, on a path that revisits the
login. -/
theorem FinalComponents.circle_is_detected :
    WellShaped Sample.circleTable [Sample.returningLookup] ∧
      generateWithin Sample.circleTable "com.app" (Sample.circleTable.visible.length + 1) []
          Sample.component.name [Sample.returningLookup]
        = some (.error (.subcomponentCycle Sample.login.name
            [Sample.login.name, Sample.detail.name, Sample.login.name])) ∧
      ∃ path : Path, Descends Sample.circleTable [Sample.returningLookup] path.steps ∧
        path.Revisits [] := by
  have hgenerate := Sample.generate_circle "com.app" Sample.component.name
  obtain ⟨hwithin, hcycles⟩ := generate_detects_cycles Sample.circleTable "com.app" []
    Sample.component.name [Sample.returningLookup]
  obtain ⟨hiff, _⟩ := hcycles Sample.wellShaped_circle
  exact ⟨Sample.wellShaped_circle, hwithin.trans (congrArg some hgenerate),
    hiff.mp ⟨_, hgenerate⟩⟩

end ScopeMerge
