import ScopeMerge.Proofs.Selection

/-!
# The nesting of final components

The lookups of subcomponents form a graph: the scope of a subcomponent may select
lookups of other subcomponents, and two scopes may select the same one. `generate`
unfolds the graph from a list of contributions into a tree, and the tree is what this
file makes explicit. A `Nesting` is such a tree, `Unfolds` says which one belongs to a
list of contributions, and its `paths` in preorder are the order of the output.

* `generate_eq_ok_iff` says when `generate` succeeds, and with what: when the graph
  unfolds into a tree in which no subcomponent is below itself, with three declarations
  for each path of the tree;
* `Unfolds.mem_paths_iff` says which paths those are, without the tree.

A nesting is written as a first child and a next sibling, because that is how
`generate` recurses: into the subcomponent it just met, and on to the other lookups.
-/

namespace ScopeMerge

namespace FinalComponents

open Vocabulary

/-! ## Paths -/

/-- A subcomponent lookup with the subcomponent it stands for. -/
structure Descent where
  lookup : Declaration
  shape : SubcomponentShape
deriving DecidableEq

/-- What a final component adds to the name of its parent. -/
def Descent.label (step : Descent) : String :=
  step.shape.subcomponent.joinedSimpleName ++ finalSuffix

/-- The name that some steps lead to from a parent. -/
def nameAlong (parent : Name) (steps : List Descent) : Name :=
  ⟨parent.text ++ String.join (steps.map fun step => "." ++ step.label)⟩

/-- The subcomponents among some contributions, in their order. -/
def descents (t : SymbolTable) (contributions : List Declaration) : List Descent :=
  contributions.filterMap fun lookup =>
    if lookup.isSubcomponentLookup then (shapeOf t lookup).toOption.map fun shape => ⟨lookup, shape⟩
    else none

/-- A path downwards from a parent; it has at least one step. -/
structure Path where
  above : List Descent
  last : Descent
deriving DecidableEq

namespace Path

/-- All steps of a path. -/
def steps (path : Path) : List Descent :=
  path.above ++ [path.last]

/-- The path with one more step before it. -/
def under (step : Descent) (path : Path) : Path :=
  { path with above := step :: path.above }

end Path

/-- Each step is a subcomponent that the scope of the one before it selects; the first one is
among the contributions. -/
def Descends (t : SymbolTable) : List Declaration → List Descent → Prop
  | _, [] => True
  | contributions, step :: rest =>
    step ∈ descents t contributions ∧ Descends t (ownContributions t step.shape) rest

variable {t : SymbolTable}

@[simp] theorem nameAlong_nil (parent : Name) : nameAlong parent [] = parent := by
  simp [nameAlong]

@[simp] theorem nameAlong_cons (parent : Name) (step : Descent) (steps : List Descent) :
    nameAlong parent (step :: steps) = nameAlong (finalName parent step.shape) steps := by
  simp [nameAlong, finalName, Name.child, Descent.label, String.append_assoc]

theorem nameAlong_append (parent : Name) (before after : List Descent) :
    nameAlong parent (before ++ after) = nameAlong (nameAlong parent before) after := by
  simp [nameAlong, String.append_assoc]

/-- The last step of a path names the final component under what the steps above it name. -/
theorem finalName_nameAlong (parent : Name) (path : Path) :
    finalName (nameAlong parent path.above) path.last.shape = nameAlong parent path.steps := by
  rw [Path.steps, nameAlong_append, nameAlong_cons, nameAlong_nil]

@[simp] theorem descents_nil : descents t [] = [] := rfl

theorem descents_cons_of_other {lookup : Declaration} {rest : List Declaration}
    (h : lookup.isSubcomponentLookup = false) : descents t (lookup :: rest) = descents t rest := by
  simp [descents, h]

theorem descents_cons {lookup : Declaration} {rest : List Declaration} {shape : SubcomponentShape}
    (h : lookup.isSubcomponentLookup = true) (hshape : shapeOf t lookup = .ok shape) :
    descents t (lookup :: rest) = ⟨lookup, shape⟩ :: descents t rest := by
  simp [descents, h, hshape, Except.toOption]

theorem mem_descents_iff {contributions : List Declaration} {step : Descent} :
    step ∈ descents t contributions ↔ step.lookup ∈ contributions ∧
      step.lookup.isSubcomponentLookup = true ∧ shapeOf t step.lookup = .ok step.shape := by
  unfold descents
  rw [List.mem_filterMap]
  refine ⟨?_, ?_⟩
  · intro h
    obtain ⟨lookup, hmem, hstep⟩ := h
    split at hstep
    · next hsub =>
      obtain ⟨shape, hshape, rfl⟩ := Option.map_eq_some_iff.mp hstep
      cases hof : shapeOf t lookup with
      | error e => rw [hof] at hshape; exact nomatch hshape
      | ok found =>
          rw [hof] at hshape
          exact ⟨hmem, hsub, congrArg _ (Option.some.inj hshape)⟩
    · exact nomatch hstep
  · intro h
    obtain ⟨hmem, hsub, hshape⟩ := h
    exact ⟨step.lookup, hmem, by rw [if_pos hsub, hshape]; rfl⟩

/-! ## Nestings -/

/-- The subcomponents below a parent: the first one, what is inside it, and those beside it. -/
inductive Nesting where
  | empty
  | node (step : Descent) (inside beside : Nesting)

namespace Nesting

/-- The subcomponents directly below the parent. -/
def roots : Nesting → List Descent
  | empty => []
  | node step _ beside => step :: beside.roots

/-- The paths of a nesting in preorder. -/
def paths : Nesting → List Path
  | empty => []
  | node step inside beside => ⟨[], step⟩ :: (inside.paths.map (Path.under step) ++ beside.paths)

/-- No subcomponent is below itself, or below one of a lineage. -/
def Acyclic : List Name → Nesting → Prop
  | _, empty => True
  | lineage, node step inside beside =>
    step.shape.subcomponent.name ∉ lineage ∧
      inside.Acyclic (lineage ++ [step.shape.subcomponent.name]) ∧ beside.Acyclic lineage

end Nesting

/-- The nesting that a list of contributions unfolds into. -/
inductive Unfolds (t : SymbolTable) : List Declaration → Nesting → Prop where
  | nil : Unfolds t [] .empty
  | other {lookup : Declaration} {rest : List Declaration} {nesting : Nesting} :
      lookup.isSubcomponentLookup = false → Unfolds t rest nesting →
      Unfolds t (lookup :: rest) nesting
  | subcomponent {lookup : Declaration} {rest : List Declaration} {shape : SubcomponentShape}
      {inside beside : Nesting} :
      lookup.isSubcomponentLookup = true → shapeOf t lookup = .ok shape →
      Unfolds t (ownContributions t shape) inside → Unfolds t rest beside →
      Unfolds t (lookup :: rest) (.node ⟨lookup, shape⟩ inside beside)

namespace Unfolds

variable {contributions : List Declaration} {nesting : Nesting}

theorem roots_eq (h : Unfolds t contributions nesting) :
    nesting.roots = descents t contributions := by
  induction h with
  | nil => rfl
  | other hsub _ ih => rw [ih, descents_cons_of_other hsub]
  | subcomponent hsub hshape _ _ _ ihbeside =>
      rw [descents_cons hsub hshape, Nesting.roots, ihbeside]

/-- A list of contributions unfolds in one way. -/
theorem unique (h : Unfolds t contributions nesting) {other : Nesting}
    (h' : Unfolds t contributions other) : nesting = other := by
  induction h generalizing other with
  | nil =>
      cases h' with
      | nil => rfl
  | other hsub _ ih =>
      cases h' with
      | other _ hrest => exact ih hrest
      | subcomponent hsub' => rw [hsub] at hsub'; exact nomatch hsub'
  | subcomponent hsub hshape _ _ ihinside ihbeside =>
      cases h' with
      | other hsub' => rw [hsub] at hsub'; exact nomatch hsub'
      | subcomponent _ hshape' hinside' hbeside' =>
          rw [hshape] at hshape'
          obtain rfl := Except.ok.inj hshape'
          rw [ihinside hinside', ihbeside hbeside']

/-- **The paths of a nesting are the chains of subcomponent lookups** that start among the
contributions. -/
theorem mem_paths_iff (h : Unfolds t contributions nesting) {path : Path} :
    path ∈ nesting.paths ↔ Descends t contributions path.steps := by
  induction h generalizing path with
  | nil =>
      -- a path has a first step, and nothing is there for it
      cases hsteps : path.steps with
      | nil => simp [Path.steps] at hsteps
      | cons step rest => simp [Nesting.paths, Descends]
  | other hsub _ ih =>
      cases hsteps : path.steps with
      | nil => simp [Path.steps] at hsteps
      | cons step rest =>
          rw [ih, hsteps, Descends, Descends, descents_cons_of_other hsub]
  | subcomponent hsub hshape _ _ ihinside ihbeside =>
      obtain ⟨above, last⟩ := path
      rw [Nesting.paths, List.mem_cons, List.mem_append, ihbeside, List.mem_map]
      cases above with
      | nil =>
          simp [Path.steps, Path.under, Descends, descents_cons hsub hshape]
      | cons step above =>
          simp only [Path.steps, List.cons_append, Descends, descents_cons hsub hshape,
            List.mem_cons]
          refine ⟨?_, ?_⟩
          · rintro (h | ⟨⟨above', last'⟩, hinner, heq⟩ | ⟨hmem, hrest⟩)
            · exact nomatch h
            · obtain ⟨⟨rfl, rfl⟩, rfl⟩ := by simpa [Path.under] using heq
              exact ⟨Or.inl rfl, ihinside.mp hinner⟩
            · exact ⟨Or.inr hmem, hrest⟩
          · rintro ⟨rfl | hmem, hrest⟩
            · exact Or.inr (Or.inl ⟨⟨above, last⟩, ihinside.mpr hrest, rfl⟩)
            · exact Or.inr (Or.inr ⟨hmem, hrest⟩)

end Unfolds

/-! ## What is generated for a path -/

namespace Path

variable (t : SymbolTable) (package : String) (parent : Name) (path : Path)

/-- The class that implements the last subcomponent of a path. -/
def component : Declaration :=
  FinalComponents.component package (nameAlong parent path.above) path.last.shape

/-- The factory inside that class. -/
def factory : Declaration :=
  FinalComponents.factory package (nameAlong parent path.above) path.last.shape

/-- The merged interface beside that class. -/
def merged : Declaration :=
  FinalComponents.merged package (nameAlong parent path.above) path.last.shape
    (ownContributions t path.last.shape)
    ((descents t (ownContributions t path.last.shape)).map fun child =>
      factoryName (nameAlong parent (path.steps ++ [child])))

/-- The three declarations for a path. -/
def implementation : List Declaration :=
  [path.component package parent, path.factory package parent, path.merged t package parent]

theorem implementation_under (step : Descent) :
    (path.under step).implementation t package parent
      = path.implementation t package (finalName parent step.shape) := by
  simp [implementation, component, factory, merged, under, steps]

end Path

namespace Nesting

/-- What finalizing a nesting gives. -/
def final (t : SymbolTable) (package : String) (parent : Name) (nesting : Nesting) :
    FinalComponents :=
  { factories := nesting.roots.map fun step => factoryName (finalName parent step.shape)
    declarations := nesting.paths.flatMap fun path => path.implementation t package parent }

theorem final_node (package : String) (parent : Name) {step : Descent} {inside beside : Nesting}
    (hroots : inside.roots = descents t (ownContributions t step.shape)) :
    (node step inside beside).final t package parent =
      { factories :=
          factoryName (finalName parent step.shape) :: (beside.final t package parent).factories
        declarations :=
          FinalComponents.component package parent step.shape ::
            FinalComponents.factory package parent step.shape ::
            FinalComponents.merged package parent step.shape (ownContributions t step.shape)
              (inside.final t package (finalName parent step.shape)).factories ::
            ((inside.final t package (finalName parent step.shape)).declarations ++
              (beside.final t package parent).declarations) } := by
  have hinside : (inside.paths.map (Path.under step)).flatMap
      (fun path => path.implementation t package parent)
      = (inside.final t package (finalName parent step.shape)).declarations := by
    rw [List.flatMap_map]
    exact List.flatMap_congr fun path _ => path.implementation_under t package parent step
  have hhead : (⟨[], step⟩ : Path).implementation t package parent =
      [FinalComponents.component package parent step.shape,
        FinalComponents.factory package parent step.shape,
        FinalComponents.merged package parent step.shape (ownContributions t step.shape)
          (inside.final t package (finalName parent step.shape)).factories] := by
    simp [Path.implementation, Path.component, Path.factory, Path.merged, Path.steps, final,
      hroots]
  rw [final, roots, paths, List.flatMap_cons, List.flatMap_append, hinside, hhead]
  rfl

end Nesting

/-! ## The output of `generate` -/

variable {package : String} {lineage : List Name} {parent : Name}
  {contributions : List Declaration} {nesting : Nesting} {result : FinalComponents}

/-- A nesting without cycles is finalized. -/
theorem generate_of_unfolds (h : Unfolds t contributions nesting) (hac : nesting.Acyclic lineage) :
    generate t package lineage parent contributions = .ok (nesting.final t package parent) := by
  induction h generalizing lineage parent with
  | nil =>
      rw [generate]
      rfl
  | other hsub _ ih => rw [generate_cons_of_other hsub, ih hac]
  | subcomponent hsub hshape hinside _ ihinside ihbeside =>
      obtain ⟨hnot, hacinside, hacbeside⟩ := hac
      rw [Nesting.final_node package parent hinside.roots_eq]
      exact (generate_cons_eq_ok_iff hsub).mpr
        ⟨_, _, _, hshape, hnot, ihinside hacinside, ihbeside hacbeside, rfl⟩

/-- What is finalized is a nesting without cycles. -/
theorem exists_unfolds_of_generate (lineage : List Name) (parent : Name)
    (contributions : List Declaration)
    (h : generate t package lineage parent contributions = .ok result) :
    ∃ nesting, Unfolds t contributions nesting ∧ nesting.Acyclic lineage := by
  -- the two recursive calls build the two subtrees
  induction lineage, parent, contributions using generate.induct t generalizing result with
  | case1 lineage parent => exact ⟨.empty, .nil, trivial⟩
  | case2 lineage parent lookup rest hsub error herror =>
      obtain ⟨shape, _, _, hshape, _⟩ := (generate_cons_eq_ok_iff hsub).mp h
      rw [herror] at hshape
      cases hshape
  | case3 lineage parent lookup rest hsub shape hshape hcycle =>
      obtain ⟨found, _, _, hfound, hnot, _⟩ := (generate_cons_eq_ok_iff hsub).mp h
      rw [hshape] at hfound
      obtain rfl := Except.ok.inj hfound
      exact absurd hcycle hnot
  | case4 lineage parent lookup rest hsub shape hshape path hcycle final contributions
      ihnested =>
      rename_i ihothers
      obtain ⟨found, nested, others, hfound, _, hnested, hothers, _⟩ :=
        (generate_cons_eq_ok_iff hsub).mp h
      rw [hshape] at hfound
      obtain rfl := Except.ok.inj hfound
      obtain ⟨inside, hinside, hacinside⟩ := ihnested hnested
      obtain ⟨beside, hbeside, hacbeside⟩ := ihothers hothers
      exact ⟨.node ⟨lookup, shape⟩ inside beside, .subcomponent hsub hshape hinside hbeside,
        hcycle, hacinside, hacbeside⟩
  | case5 lineage parent lookup rest hsub ih =>
      rw [generate_cons_of_other (by simpa using hsub)] at h
      obtain ⟨nesting, hnesting, hac⟩ := ih h
      exact ⟨nesting, .other (by simpa using hsub) hnesting, hac⟩

/-- **`generate` succeeds exactly when the contributions unfold into a nesting without cycles**,
and it gives what the nesting is finalized to. -/
theorem generate_eq_ok_iff :
    generate t package lineage parent contributions = .ok result ↔
      ∃ nesting, Unfolds t contributions nesting ∧ nesting.Acyclic lineage ∧
        result = nesting.final t package parent := by
  refine ⟨?_, ?_⟩
  · intro h
    obtain ⟨nesting, hnesting, hac⟩ := exists_unfolds_of_generate lineage parent contributions h
    rw [generate_of_unfolds hnesting hac] at h
    exact ⟨nesting, hnesting, hac, (Except.ok.inj h).symm⟩
  · intro h
    obtain ⟨nesting, hnesting, hac, rfl⟩ := h
    exact generate_of_unfolds hnesting hac

/-- What the declarations for a path say. -/
structure Path.Implemented (t : SymbolTable) (package : String) (parent : Name) (path : Path) :
    Prop where
  kind : (path.component package parent).kind = .classType
  name : (path.component package parent).name = nameAlong parent path.steps
  /-- The final component is constructed from the one above it, at the top from the parent. -/
  parentComponent : ∃ parameter others,
    (path.component package parent).constructor = parameter :: others ∧
      parameter.name = "parentComponent" ∧ parameter.type = nameAlong parent path.above
  origin : (path.component package parent).origin = some path.last.shape.subcomponent.name
  factory : (path.factory package parent).name = factoryName (nameAlong parent path.steps) ∧
    (path.factory package parent).supertypes = [path.last.shape.factory.name]
  mergedName : (path.merged t package parent).name = mergedName (nameAlong parent path.steps)
  /-- The contributions of a subcomponent are those of its own scope. -/
  scope : Scope.resolve t path.last.shape.subcomponent = .ok path.last.shape.scope
  /-- The merged interface extends what that scope selects, and the factories one step further
  down. -/
  supertypes : (path.merged t package parent).supertypes =
    (Merge.select t path.last.shape.scope.marker []).map (·.name) ++
      (descents t (Merge.select t path.last.shape.scope.marker [])).map fun child =>
        factoryName (nameAlong parent (path.steps ++ [child]))

theorem resolve_of_shapeOf {lookup : Declaration} {shape : SubcomponentShape}
    (h : shapeOf t lookup = .ok shape) : Scope.resolve t shape.subcomponent = .ok shape.scope := by
  obtain ⟨_, _, hscope, _⟩ :=
    SubcomponentShape.ofSubcomponent_eq_ok_iff.mp (ofSubcomponent_of_shapeOf h)
  exact hscope

theorem Descends.shapeOf_eq {contributions : List Declaration} {steps : List Descent}
    (h : Descends t contributions steps) :
    ∀ step ∈ steps, shapeOf t step.lookup = .ok step.shape := by
  induction steps generalizing contributions with
  | nil => simp
  | cons first rest ih =>
      obtain ⟨hfirst, hrest⟩ := h
      intro step hstep
      rcases List.mem_cons.mp hstep with rfl | hstep
      · exact (mem_descents_iff.mp hfirst).2.2
      · exact ih hrest step hstep

theorem Path.implemented {path : Path}
    (h : shapeOf t path.last.lookup = .ok path.last.shape) : path.Implemented t package parent where
  kind := rfl
  name := finalName_nameAlong parent path
  parentComponent := ⟨_, _, rfl, rfl, rfl⟩
  origin := rfl
  factory := ⟨congrArg factoryName (finalName_nameAlong parent path), rfl⟩
  mergedName := congrArg FinalComponents.mergedName (finalName_nameAlong parent path)
  scope := resolve_of_shapeOf h
  supertypes := rfl

/-- **Final components are the subcomponent chains in preorder.** The contributions unfold into a
tree whose paths are the chains of subcomponent lookups that start among them; the output lists
the three declarations of each path, a path before those below it and those before the ones beside
it, and names, parents, origins and supertypes are read off the path. -/
theorem generate_lists_nesting
    (h : generate t package lineage parent contributions = .ok result) :
    ∃ nesting, Unfolds t contributions nesting ∧
      (∀ path, path ∈ nesting.paths ↔ Descends t contributions path.steps) ∧
      result.declarations
        = nesting.paths.flatMap (fun path =>
            [path.component package parent, path.factory package parent,
              path.merged t package parent]) ∧
      ∀ path ∈ nesting.paths, path.Implemented t package parent := by
  obtain ⟨nesting, hunfolds, _, rfl⟩ := generate_eq_ok_iff.mp h
  refine ⟨nesting, hunfolds, fun _ => hunfolds.mem_paths_iff, rfl, fun path hpath => ?_⟩
  have hsteps := (hunfolds.mem_paths_iff.mp hpath).shapeOf_eq
  exact Path.implemented (hsteps path.last (List.mem_append_right _ (List.mem_singleton_self _)))

end FinalComponents

/-! ## A sample

A subcomponent whose scope selects another one. -/

namespace Sample

open Vocabulary FinalComponents

def withScope (annotationType scope : Name) : AnnotationUsage :=
  { type := annotationType
    arguments := [{ name := some scopeParameter, value := .type scope }] }

def create (d : Declaration) : MemberFunction :=
  { name := "create", isAbstract := true, returnType := some d.name }

/-- A subcomponent with a scope of its own. -/
def subcomponent (package simple : String) (scope : Name) : Declaration :=
  { Declaration.topLevel .interface package simple with
    annotations := [{ type := contributesSubcomponent }, withScope singleIn scope] }

/-- Its factory, contributed to a scope. -/
def factoryOf (d : Declaration) (scope : Name) : Declaration :=
  { Declaration.nested .interface d "Factory" with
    annotations := [withScope subcomponentFactory scope]
    functions := [create d] }

/-- The two together, checked. -/
def shapeOn (d : Declaration) (contributed own : Name) : SubcomponentShape :=
  { subcomponent := d, factory := factoryOf d contributed, function := create d
    scope := { marker := own, source := .marker singleIn } }

/-- The lookup for such a factory, by its simple name. -/
def lookupOf (simple : String) (factory : Declaration) (scope : Name) : Declaration :=
  { Declaration.topLevel .interface lookupNamespace simple with
    supertypes := [factory.name]
    annotations := [withScope contributionScope scope, { type := subcomponentFactoryMarker }]
    origin := some factory.name }

def loginScope : Name := ⟨"com.app.LoginScope"⟩

def detailScope : Name := ⟨"com.app.DetailScope"⟩

def login : Declaration := subcomponent "com.app" "Login" loginScope

def loginFactory : Declaration := factoryOf login appScope

def loginLookup : Declaration := lookupOf "ComAppLoginFactory" loginFactory appScope

def detail : Declaration := subcomponent "com.app" "Detail" detailScope

def detailFactory : Declaration := factoryOf detail loginScope

def detailLookup : Declaration := lookupOf "ComAppDetailFactory" detailFactory loginScope

/-- The two subcomponents, and an application that the login is contributed to. -/
def chain : List Session.Input :=
  [.sources { files :=
      [{ id := ⟨"Detail.kt"⟩, declarations := [detail, detailFactory] },
        { id := ⟨"Login.kt"⟩, declarations := [login, loginFactory] }] },
    .sources application]

/-- The table that the application is merged from. -/
def chainTable : SymbolTable :=
  (Session.loadedTable chain).append [.generated detailLookup, .generated loginLookup] true

theorem standsFor_lookupOf (simple : String) (factory : Declaration) (scope : Scope) :
    (lookupOf simple factory scope.marker).StandsFor factory scope :=
  ⟨rfl, rfl, rfl, rfl, Or.inr rfl⟩

theorem isSubcomponentLookup_lookupOf (simple : String) (factory : Declaration) (scope : Name) :
    (lookupOf simple factory scope).isSubcomponentLookup = true := by
  unfold Declaration.isSubcomponentLookup
  rw [(standsFor_lookupOf simple factory { marker := scope, source := .argument default }).isLookup]
  simp [Declaration.isAnnotatedWith, lookupOf]

/-- The factory of a subcomponent is visible with the scope it is contributed to, and in order. -/
def Offers (t : SymbolTable) (simple : String) (d : Declaration) (contributed own : Name) : Prop :=
  t.find? (factoryOf d contributed).name = some (factoryOf d contributed) ∧
    ((factoryOf d contributed).isLookup = false ∧
      (factoryOf d contributed).name ≠
        (lookupOf simple (factoryOf d contributed) contributed).name) ∧
    Scope.resolve t (factoryOf d contributed)
      = .ok { marker := contributed, source := .argument subcomponentFactory } ∧
    SubcomponentShape.ofFactory t (factoryOf d contributed) = .ok (shapeOn d contributed own)

instance (t : SymbolTable) (simple : String) (d : Declaration) (contributed own : Name) :
    Decidable (Offers t simple d contributed own) :=
  inferInstanceAs (Decidable (_ ∧ _ ∧ _ ∧ _))

namespace Offers

variable {t : SymbolTable} {simple : String} {d : Declaration} {contributed own : Name}

theorem shapeOf_eq (h : Offers t simple d contributed own) :
    shapeOf t (lookupOf simple (factoryOf d contributed) contributed)
      = .ok (shapeOn d contributed own) := by
  obtain ⟨hfind, ⟨hplain, hne⟩, _, hshape⟩ := h
  have hstands := standsFor_lookupOf simple (factoryOf d contributed)
    { marker := contributed, source := .argument subcomponentFactory }
  exact (shapeOf_of_standsFor hstands hfind hplain hne).trans hshape

/-- The lookup of the factory is selected for the scope that the factory is contributed to, unless
it, the factory or the subcomponent is excluded. -/
theorem selects_excluding (h : Offers t simple d contributed own) (hb : t.SeesBuiltins)
    (marker : Name) (exclusions : List Name) :
    Merge.selects t marker exclusions (lookupOf simple (factoryOf d contributed) contributed)
      = decide (contributed = marker ∧ Name.inPackage lookupNamespace simple ∉ exclusions ∧
          (factoryOf d contributed).name ∉ exclusions ∧ d.name ∉ exclusions) := by
  obtain ⟨hfind, ⟨hplain, hne⟩, hscope, _⟩ := h
  rw [Bool.eq_iff_iff, decide_eq_true_iff,
    Merge.selects_iff hb (standsFor_lookupOf _ _ _) hfind hplain hne hscope,
    isSubcomponentLookup_lookupOf]
  simp [lookupOf, factoryOf, Declaration.topLevel, Declaration.nested]

theorem selects_eq (h : Offers t simple d contributed own) (hb : t.SeesBuiltins) (marker : Name) :
    Merge.selects t marker [] (lookupOf simple (factoryOf d contributed) contributed)
      = decide (contributed = marker) := by
  rw [h.selects_excluding hb]
  simp

end Offers

theorem offers_chain : Offers chainTable "ComAppLoginFactory" login appScope loginScope ∧
    Offers chainTable "ComAppDetailFactory" detail loginScope detailScope := by
  decide

theorem lookups_chain : Merge.lookups chainTable = [detailLookup, loginLookup] :=
  Merge.lookups_append_loadedTable (by decide)

def loginShape : SubcomponentShape := shapeOn login appScope loginScope

def detailShape : SubcomponentShape := shapeOn detail loginScope detailScope

/-- The application selects the login, the login selects the detail, and the detail nothing. -/
theorem select_chain : Merge.select chainTable appScope [] = [loginLookup] ∧
    Merge.select chainTable loginScope [] = [detailLookup] ∧
      Merge.select chainTable detailScope [] = [] := by
  have hb : chainTable.SeesBuiltins := (Session.seesBuiltins_loadedTable chain).append _ _
  have hlogin : ∀ marker,
      Merge.selects chainTable marker [] loginLookup = decide (appScope = marker) :=
    offers_chain.1.selects_eq hb
  have hdetail : ∀ marker,
      Merge.selects chainTable marker [] detailLookup = decide (loginScope = marker) :=
    offers_chain.2.selects_eq hb
  have hne : appScope ≠ loginScope ∧ appScope ≠ detailScope ∧ loginScope ≠ detailScope := by
    decide
  unfold Merge.select
  rw [lookups_chain]
  simp [hlogin, hdetail, hne.1, hne.2.1, hne.2.2, hne.1.symm]

/-- What the login subcomponent unfolds into. -/
def chainNesting : Nesting :=
  .node ⟨loginLookup, loginShape⟩ (.node ⟨detailLookup, detailShape⟩ .empty .empty) .empty

theorem unfolds_chain : Unfolds chainTable [loginLookup] chainNesting := by
  obtain ⟨_, hlogin, hdetail⟩ := select_chain
  refine .subcomponent (isSubcomponentLookup_lookupOf _ _ _) offers_chain.1.shapeOf_eq ?_ .nil
  show Unfolds chainTable (Merge.select chainTable loginScope []) _
  rw [hlogin]
  refine .subcomponent (isSubcomponentLookup_lookupOf _ _ _) offers_chain.2.shapeOf_eq ?_ .nil
  show Unfolds chainTable (Merge.select chainTable detailScope []) _
  rw [hdetail]
  exact .nil

theorem acyclic_chain : chainNesting.Acyclic [] := by
  have hne : login.name ≠ detail.name := by decide
  simp [chainNesting, Nesting.Acyclic, loginShape, detailShape, shapeOn, hne.symm]

end Sample

open FinalComponents in
/-- Six declarations are generated for the login of an application, in this order. -/
theorem FinalComponents.login_lists_nesting :
    ∃ result nesting,
      generate Sample.chainTable "com.app" [] Sample.component.name [Sample.loginLookup] =
          .ok result ∧
        result.declarations.map (·.name.text) =
          ["com.app.AppComponent.LoginFinal", "com.app.AppComponent.LoginFinal.Factory",
            "com.app.AppComponent.LoginFinalMerged",
            "com.app.AppComponent.LoginFinal.DetailFinal",
            "com.app.AppComponent.LoginFinal.DetailFinal.Factory",
            "com.app.AppComponent.LoginFinal.DetailFinalMerged"] ∧
        Unfolds Sample.chainTable [Sample.loginLookup] nesting ∧
        result.declarations = nesting.paths.flatMap fun path =>
          [path.component "com.app" Sample.component.name,
            path.factory "com.app" Sample.component.name,
            path.merged Sample.chainTable "com.app" Sample.component.name] := by
  have h : generate Sample.chainTable "com.app" [] Sample.component.name [Sample.loginLookup]
      = .ok (Sample.chainNesting.final Sample.chainTable "com.app" Sample.component.name) :=
    generate_of_unfolds Sample.unfolds_chain Sample.acyclic_chain
  obtain ⟨nesting, hunfolds, _, hlist, _⟩ := generate_lists_nesting h
  refine ⟨_, nesting, h, ?_, hunfolds, hlist⟩
  decide

end ScopeMerge
