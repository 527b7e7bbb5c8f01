import ScopeMerge.Proofs.Nesting

/-!
# What generated subcomponents refer to

The declarations that are generated for subcomponents refer to each other and to what
was written by hand, and always by name. The references run in all directions: a final
component names its parent above it, its factory and its merged interface stand beside
it, and a merged interface names the factories of the level below, which are generated
after it. `Closed` says that no reference is left open, and that what a factory
constructs takes the arguments it is given.

* What was written by hand is found because its shape was checked (`Sound`).
* What is generated is found because the paths of a nesting are closed in both
  directions: under taking the last step away (`Descends.of_append`), and under one more
  step to a subcomponent that the last one selects (`Descends.concat`).
-/

namespace ScopeMerge

open Vocabulary

/-! ## What was checked by hand-written names -/

namespace SubcomponentShape

variable {t : SymbolTable} {subcomponent factory : Declaration} {function : MemberFunction}
  {shape : SubcomponentShape}

/-- The subcomponent and its factory are the ones found under their names, and the factory has one
thing to implement: to return the subcomponent. -/
structure Sound (t : SymbolTable) (shape : SubcomponentShape) : Prop where
  subcomponent : t.find? shape.subcomponent.name = some shape.subcomponent
  factory : t.find? shape.factory.name = some shape.factory
  function : shape.factory.abstractFunctions = [shape.function]
  returns : shape.function.returnType = some shape.subcomponent.name

theorem soleFunction_eq_ok_iff :
    soleFunction factory = .ok function ↔ factory.abstractFunctions = [function] := by
  unfold soleFunction
  split <;> simp_all

theorem factoryFunction_ok (h : factoryFunction subcomponent factory = .ok function) :
    factory.abstractFunctions = [function] ∧ function.returnType = some subcomponent.name := by
  simp only [factoryFunction, Checking.bind_eq_ok, Checking.pure_eq_ok] at h
  obtain ⟨_, _, _, _, found, hfound, _, hreturns, rfl⟩ := h
  exact ⟨soleFunction_eq_ok_iff.mp hfound,
    of_decide_eq_true (Checking.refuseUnless_eq_ok.mp hreturns)⟩

theorem find?_factory_of_ofSubcomponent (h : ofSubcomponent t subcomponent = .ok shape) :
    t.find? shape.factory.name = some shape.factory := by
  obtain ⟨⟨e, _, _, hfind⟩, _⟩ := mem_factories_iff.mp (factory_mem_of_ofSubcomponent h)
  rw [(SymbolTable.find?_eq_some hfind).2]
  exact hfind

theorem sound_of_ofFactory (h : ofFactory t factory = .ok shape) : shape.Sound t := by
  obtain ⟨henclosing, hshape, _⟩ := ofFactory_eq_ok_iff.mp h
  obtain ⟨parent, _, hfind, _⟩ := enclosing_eq_ok_iff.mp henclosing
  obtain ⟨_, _, _, _, hfunction, _⟩ := ofSubcomponent_eq_ok_iff.mp hshape
  obtain ⟨hsole, hreturns⟩ := factoryFunction_ok hfunction
  refine ⟨?_, find?_factory_of_ofSubcomponent hshape, hsole, hreturns⟩
  rw [(SymbolTable.find?_eq_some hfind).2]
  exact hfind

end SubcomponentShape

theorem Merge.find?_isSome_of_select {t : SymbolTable} {scope : Name} {exclusions : List Name}
    {d : Declaration} (h : d ∈ select t scope exclusions) : (t.find? d.name).isSome = true := by
  obtain ⟨found, hfound⟩ := SymbolTable.exists_find?_of_mem (mem_declarations_of_select h)
  exact Option.isSome_iff_exists.mpr ⟨found, hfound⟩

namespace FinalComponents

variable {t : SymbolTable} {package : String} {lineage : List Name} {parent : Name}
  {contributions : List Declaration} {nesting : Nesting} {path : Path}

theorem sound_of_shapeOf {lookup : Declaration} {shape : SubcomponentShape}
    (h : shapeOf t lookup = .ok shape) : shape.Sound t := by
  obtain ⟨_, _, _, hfactory⟩ := shapeOf_eq_ok_iff.mp h
  exact SubcomponentShape.sound_of_ofFactory hfactory

/-! ## Upwards and downwards along a path -/

theorem Descends.of_append {steps more : List Descent}
    (h : Descends t contributions (steps ++ more)) : Descends t contributions steps := by
  induction steps generalizing contributions with
  | nil => trivial
  | cons step rest ih =>
      obtain ⟨hstep, hrest⟩ := h
      exact ⟨hstep, ih hrest⟩

/-- A path goes on to every subcomponent that the scope of its last one selects. -/
theorem Descends.concat {above : List Descent} {last child : Descent}
    (h : Descends t contributions (above ++ [last]))
    (hchild : child ∈ descents t (ownContributions t last.shape)) :
    Descends t contributions ((above ++ [last]) ++ [child]) := by
  induction above generalizing contributions with
  | nil => exact ⟨h.1, hchild, trivial⟩
  | cons step rest ih =>
      obtain ⟨hstep, hrest⟩ := h
      exact ⟨hstep, ih hrest⟩

/-- What a path goes on to is a path. -/
theorem Unfolds.path_below (h : Unfolds t contributions nesting) (hpath : path ∈ nesting.paths)
    {child : Descent} (hchild : child ∈ descents t (ownContributions t path.last.shape)) :
    ⟨path.steps, child⟩ ∈ nesting.paths :=
  h.mem_paths_iff.mpr ((h.mem_paths_iff.mp hpath).concat hchild)

/-- What is above the last step of a path is a path, if there is anything. -/
theorem Unfolds.path_above (h : Unfolds t contributions nesting) (hpath : path ∈ nesting.paths) :
    path.above = [] ∨ ∃ upper ∈ nesting.paths, upper.steps = path.above := by
  rcases List.eq_nil_or_concat path.above with hnil | ⟨above, last, habove⟩
  · exact Or.inl hnil
  · have hsteps : Descends t contributions (path.above ++ [path.last]) := h.mem_paths_iff.mp hpath
    rw [habove, List.concat_eq_append] at hsteps
    exact Or.inr ⟨⟨above, last⟩, h.mem_paths_iff.mpr hsteps.of_append,
      (List.concat_eq_append.symm.trans habove.symm)⟩

theorem Unfolds.path_of_root (h : Unfolds t contributions nesting) {step : Descent}
    (hstep : step ∈ nesting.roots) : ⟨[], step⟩ ∈ nesting.paths := by
  rw [h.roots_eq] at hstep
  exact h.mem_paths_iff.mpr ⟨hstep, trivial⟩

theorem Unfolds.sound (h : Unfolds t contributions nesting) (hpath : path ∈ nesting.paths) :
    path.last.shape.Sound t := by
  have hsteps := (h.mem_paths_iff.mp hpath).shapeOf_eq
  exact sound_of_shapeOf (hsteps path.last (List.mem_append_right _ (List.mem_singleton_self _)))

/-! ## The declarations for a path -/

theorem Nesting.mem_final_iff {d : Declaration} :
    d ∈ (nesting.final t package parent).declarations ↔ ∃ path ∈ nesting.paths,
      d = path.component package parent ∨ d = path.factory package parent ∨
        d = path.merged t package parent := by
  simp only [final, List.mem_flatMap, Path.implementation, List.mem_cons, List.not_mem_nil,
    or_false]

theorem Path.name_component (package : String) (parent : Name) (path : Path) :
    (path.component package parent).name = nameAlong parent path.steps :=
  finalName_nameAlong parent path

theorem Path.name_factory (package : String) (parent : Name) (path : Path) :
    (path.factory package parent).name = factoryName (nameAlong parent path.steps) :=
  congrArg factoryName (finalName_nameAlong parent path)

theorem Path.name_merged (t : SymbolTable) (package : String) (parent : Name) (path : Path) :
    (path.merged t package parent).name = mergedName (nameAlong parent path.steps) :=
  congrArg mergedName (finalName_nameAlong parent path)

theorem length_lt_child (name : Name) (member : String) :
    name.text.length < (name.child member).text.length := by
  have hdot : ".".length = 1 := rfl
  simp only [Name.child, String.length_append]
  omega

theorem length_le_mergedName (final : Name) :
    final.text.length ≤ (mergedName final).text.length := by
  simp [mergedName, Name.withSuffix]

theorem length_lt_nameAlong_steps (parent : Name) (path : Path) :
    (nameAlong parent path.above).text.length < (nameAlong parent path.steps).text.length := by
  rw [← finalName_nameAlong]
  exact length_lt_child _ _

theorem ne_of_length_lt {d e : Declaration} (h : e.name.text.length < d.name.text.length) :
    e ≠ d :=
  fun heq => absurd (heq ▸ h) (Nat.lt_irrefl _)

/-! ## Closed output -/

/-- Some declarations declare a name. -/
def Declares (ds : List Declaration) (n : Name) : Prop :=
  ∃ d ∈ ds, d.name = n

/-- A generated function constructs a component: it implements the only abstract function of a
factory that was written by hand, and hands its own parameters on to a class that takes them after
the parent. -/
structure Constructs (t : SymbolTable) (ds : List Declaration) (implementation : Declaration)
    (f : MemberFunction) (component parent : Name) (arguments : List String)
    (user : Declaration) (sole : MemberFunction) (built : Declaration) : Prop where
  isInterface : implementation.kind = .interface
  implements : implementation.supertypes = [user.name]
  visible : t.find? user.name = some user
  soleFunction : user.abstractFunctions = [sole]
  name : f.name = sole.name
  parameters : f.parameters = sole.parameters
  returnType : f.returnType = sole.returnType
  isGenerated : built ∈ ds
  isNamed : built.name = component
  isClass : built.kind = .classType
  /-- The parent comes first, then what the user's factory is given, as something to provide. -/
  constructor : built.constructor =
    { name := "parentComponent", type := parent
      annotations := [{ type := Vocabulary.component }] } ::
      sole.parameters.map fun parameter =>
        { parameter with annotations := parameter.annotations ++ [{ type := provides }] }
  arguments : arguments = sole.parameters.map (·.name)
  /-- What is constructed is what the factory promises to return. -/
  returns : ∃ promised, sole.returnType = some promised ∧ promised ∈ built.supertypes

/-- No reference of what is generated under a parent is left open. -/
structure Closed (t : SymbolTable) (parent : Name) (result : FinalComponents) : Prop where
  /-- Each factory for the parent is declared, by what has one function and constructs something
  with it. -/
  factories : ∀ n ∈ result.factories, ∃ d ∈ result.declarations, d.name = n ∧
    ∃ f component arguments, d.functions = [f] ∧
      f.body = some (.createComponent component parent arguments)
  supertypes : ∀ d ∈ result.declarations, ∀ n ∈ d.supertypes,
    (t.find? n).isSome = true ∨ Declares result.declarations n
  parents : ∀ d ∈ result.declarations, ∃ n, d.parent = some n ∧
    (n = parent ∨ ∃ e ∈ result.declarations, e.name = n ∧ e ≠ d)
  bodies : ∀ d ∈ result.declarations, ∀ f ∈ d.functions, ∀ component above arguments,
    f.body = some (.createComponent component above arguments) →
      ∃ user sole built,
        Constructs t result.declarations d f component above arguments user sole built

section

variable (hunfolds : Unfolds t contributions nesting) (hpath : path ∈ nesting.paths)

include hunfolds hpath

theorem known_of_component {n : Name} (hn : n ∈ (path.component package parent).supertypes) :
    (t.find? n).isSome = true ∨ Declares (nesting.final t package parent).declarations n := by
  rcases List.mem_cons.mp hn with rfl | hn
  · left
    rw [(hunfolds.sound hpath).subcomponent]
    rfl
  · obtain rfl := List.mem_singleton.mp hn
    right
    exact ⟨_, Nesting.mem_final_iff.mpr ⟨path, hpath, Or.inr (Or.inr rfl)⟩, rfl⟩

theorem known_of_factory {n : Name} (hn : n ∈ (path.factory package parent).supertypes) :
    (t.find? n).isSome = true := by
  obtain rfl := List.mem_singleton.mp hn
  rw [(hunfolds.sound hpath).factory]
  rfl

/-- The factories that a merged interface extends are generated one level further down. -/
theorem known_of_merged {n : Name} (hn : n ∈ (path.merged t package parent).supertypes) :
    (t.find? n).isSome = true ∨ Declares (nesting.final t package parent).declarations n := by
  rcases List.mem_append.mp hn with hn | hn
  · obtain ⟨lookup, hlookup, rfl⟩ := List.mem_map.mp hn
    exact Or.inl (Merge.find?_isSome_of_select hlookup)
  · obtain ⟨child, hchild, rfl⟩ := List.mem_map.mp hn
    have hbelow : ⟨path.steps, child⟩ ∈ nesting.paths := hunfolds.path_below hpath hchild
    right
    exact ⟨_, Nesting.mem_final_iff.mpr ⟨_, hbelow, Or.inr (Or.inl rfl)⟩, Path.name_factory _ _ _⟩

/-- The parent of a path is the given one, or the final component of the path above. -/
theorem parent_above {d : Declaration}
    (hd : (nameAlong parent path.above).text.length < d.name.text.length) :
    nameAlong parent path.above = parent ∨
      ∃ e ∈ (nesting.final t package parent).declarations,
        e.name = nameAlong parent path.above ∧ e ≠ d := by
  rcases hunfolds.path_above hpath with hnil | ⟨upper, hupper, hsteps⟩
  · left
    rw [hnil, nameAlong_nil]
  · have hname : (upper.component package parent).name = nameAlong parent path.above := by
      rw [Path.name_component, hsteps]
    refine Or.inr ⟨_, Nesting.mem_final_iff.mpr ⟨upper, hupper, Or.inl rfl⟩, hname, ?_⟩
    exact ne_of_length_lt (hname ▸ hd)

theorem constructs_of_path {f : MemberFunction} (hf : f ∈ (path.factory package parent).functions)
    {component above : Name} {arguments : List String}
    (hbody : f.body = some (.createComponent component above arguments)) :
    Constructs t (nesting.final t package parent).declarations (path.factory package parent) f
      component above arguments path.last.shape.factory path.last.shape.function
      (path.component package parent) := by
  have hsound := hunfolds.sound hpath
  obtain rfl := List.mem_singleton.mp hf
  obtain ⟨rfl, rfl, rfl⟩ := FunctionBody.createComponent.inj (Option.some.inj hbody)
  exact
    { isInterface := rfl
      implements := rfl
      visible := hsound.factory
      soleFunction := hsound.function
      name := rfl
      parameters := rfl
      returnType := rfl
      isGenerated := Nesting.mem_final_iff.mpr ⟨path, hpath, Or.inl rfl⟩
      isNamed := rfl
      isClass := rfl
      constructor := rfl
      arguments := rfl
      returns := ⟨_, hsound.returns, List.mem_cons_self⟩ }

end

theorem closed_final (hunfolds : Unfolds t contributions nesting) :
    Closed t parent (nesting.final t package parent) where
  factories := by
    intro n hn
    obtain ⟨step, hstep, rfl⟩ := List.mem_map.mp hn
    have hpath := hunfolds.path_of_root hstep
    refine ⟨_, Nesting.mem_final_iff.mpr ⟨_, hpath, Or.inr (Or.inl rfl)⟩, ?_, _,
      finalName parent step.shape, step.shape.function.parameters.map (·.name), rfl, ?_⟩
    · simp [Path.name_factory, Path.steps]
    · simp
  supertypes := by
    intro d hd n hn
    obtain ⟨path, hpath, rfl | rfl | rfl⟩ := Nesting.mem_final_iff.mp hd
    · exact known_of_component hunfolds hpath hn
    · exact Or.inl (known_of_factory hunfolds hpath hn)
    · exact known_of_merged hunfolds hpath hn
  parents := by
    intro d hd
    obtain ⟨path, hpath, rfl | rfl | rfl⟩ := Nesting.mem_final_iff.mp hd
    · refine ⟨_, rfl, parent_above hunfolds hpath ?_⟩
      rw [Path.name_component]
      exact length_lt_nameAlong_steps parent path
    · -- the factory is inside the component of the same path
      refine ⟨_, rfl, Or.inr ⟨path.component package parent,
        Nesting.mem_final_iff.mpr ⟨path, hpath, Or.inl rfl⟩, rfl, ne_of_length_lt ?_⟩⟩
      exact length_lt_child _ _
    · refine ⟨_, rfl, parent_above hunfolds hpath ?_⟩
      rw [Path.name_merged]
      exact (length_lt_nameAlong_steps parent path).trans_le (length_le_mergedName _)
  bodies := by
    intro d hd f hf component above arguments hbody
    obtain ⟨path, hpath, rfl | rfl | rfl⟩ := Nesting.mem_final_iff.mp hd
    · exact absurd hf List.not_mem_nil
    · exact ⟨_, _, _, constructs_of_path hunfolds hpath hf hbody⟩
    · exact absurd hf List.not_mem_nil

/-- **Generated subcomponents are closed and well typed.** Every name that they refer to is visible
in the table or declared among them, whatever tree the subcomponents form; and a factory constructs
a class among them with the arguments that the class takes. -/
theorem generate_is_closed {result : FinalComponents}
    (h : generate t package lineage parent contributions = .ok result) :
    Closed t parent result := by
  obtain ⟨nesting, hunfolds, _, rfl⟩ := generate_eq_ok_iff.mp h
  exact closed_final hunfolds

end FinalComponents

/-! ## A sample

Inside the login there is an account, which is created for a user. -/

namespace Sample

open FinalComponents

def accountScope : Name := ⟨"com.app.AccountScope"⟩

def account : Declaration := subcomponent "com.app" "Account" accountScope

def createAccount : MemberFunction :=
  { create account with parameters := [{ name := "user", type := ⟨"com.app.User"⟩ }] }

def accountFactory : Declaration :=
  { factoryOf account loginScope with functions := [createAccount] }

def accountLookup : Declaration := lookupOf "ComAppAccountFactory" accountFactory loginScope

def accountShape : SubcomponentShape :=
  { subcomponent := account, factory := accountFactory, function := createAccount
    scope := { marker := accountScope, source := .marker singleIn } }

def accounts : List Session.Input :=
  [.sources { files :=
      [{ id := ⟨"Account.kt"⟩, declarations := [account, accountFactory] },
        { id := ⟨"Login.kt"⟩, declarations := [login, loginFactory] }] }]

def accountsTable : SymbolTable :=
  (Session.loadedTable accounts).append [.generated accountLookup, .generated loginLookup] true

theorem offers_login : Offers accountsTable "ComAppLoginFactory" login appScope loginScope := by
  decide

theorem account_checked :
    accountsTable.find? accountFactory.name = some accountFactory ∧
      accountFactory.isLookup = false ∧ accountFactory.name ≠ accountLookup.name ∧
      Scope.resolve accountsTable accountFactory
        = .ok { marker := loginScope, source := .argument subcomponentFactory } ∧
      SubcomponentShape.ofFactory accountsTable accountFactory = .ok accountShape := by
  decide

theorem standsFor_account : accountLookup.StandsFor accountFactory
    { marker := loginScope, source := .argument subcomponentFactory } :=
  standsFor_lookupOf "ComAppAccountFactory" accountFactory
    { marker := loginScope, source := .argument subcomponentFactory }

/-- The login selects the account, and the account nothing. -/
theorem select_accounts : Merge.select accountsTable loginScope [] = [accountLookup] ∧
    Merge.select accountsTable accountScope [] = [] := by
  have hb : accountsTable.SeesBuiltins := (Session.seesBuiltins_loadedTable accounts).append _ _
  have hlookups : Merge.lookups accountsTable = [accountLookup, loginLookup] :=
    Merge.lookups_append_loadedTable (by decide)
  obtain ⟨hfind, hplain, hne, hscope, _⟩ := account_checked
  have haccount : ∀ marker,
      Merge.selects accountsTable marker [] accountLookup = decide (loginScope = marker) := by
    intro marker
    rw [Bool.eq_iff_iff, decide_eq_true_iff,
      Merge.selects_iff hb standsFor_account hfind hplain hne hscope]
    simp
  have hlogin : ∀ marker,
      Merge.selects accountsTable marker [] loginLookup = decide (appScope = marker) :=
    offers_login.selects_eq hb
  have hscopes : appScope ≠ loginScope ∧ appScope ≠ accountScope ∧ loginScope ≠ accountScope := by
    decide
  unfold Merge.select
  rw [hlookups]
  simp [haccount, hlogin, hscopes.1, hscopes.2.1, hscopes.2.2]

def accountsNesting : Nesting :=
  .node ⟨loginLookup, loginShape⟩ (.node ⟨accountLookup, accountShape⟩ .empty .empty) .empty

theorem unfolds_accounts : Unfolds accountsTable [loginLookup] accountsNesting := by
  obtain ⟨hlogin, haccount⟩ := select_accounts
  obtain ⟨hfind, hplain, hne, hscope, hshape⟩ := account_checked
  refine .subcomponent (isSubcomponentLookup_lookupOf _ _ _) offers_login.shapeOf_eq ?_ .nil
  show Unfolds accountsTable (Merge.select accountsTable loginScope []) _
  rw [hlogin]
  refine .subcomponent (isSubcomponentLookup_lookupOf _ _ _)
    ((shapeOf_of_standsFor standsFor_account hfind hplain hne).trans hshape) ?_ .nil
  show Unfolds accountsTable (Merge.select accountsTable accountScope []) _
  rw [haccount]
  exact .nil

end Sample

open FinalComponents in
/-- The account is constructed from the login above it and from the user. -/
theorem FinalComponents.login_is_closed :
    ∃ result,
      generate Sample.accountsTable "com.app" [] Sample.component.name [Sample.loginLookup]
        = .ok result ∧
      Closed Sample.accountsTable Sample.component.name result ∧
      ∃ d ∈ result.declarations, ∃ f ∈ d.functions, f.body = some
        (.createComponent ⟨"com.app.AppComponent.LoginFinal.AccountFinal"⟩
          ⟨"com.app.AppComponent.LoginFinal"⟩ ["user"]) := by
  have hnew : Sample.account.name ∉ [Sample.login.name] := by decide
  have h : generate Sample.accountsTable "com.app" [] Sample.component.name [Sample.loginLookup]
      = .ok (Sample.accountsNesting.final Sample.accountsTable "com.app" Sample.component.name) :=
    generate_of_unfolds Sample.unfolds_accounts
      ⟨List.not_mem_nil, ⟨hnew, trivial, trivial⟩, trivial⟩
  refine ⟨_, h, generate_is_closed h, ?_⟩
  decide

end ScopeMerge
