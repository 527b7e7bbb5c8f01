import ScopeMerge.Proofs.Generated

/-!
# When bindings are contributed

A usage of a binding annotation *asks for* a binding: of the type it names, or else of the one
supertype that a type can be inferred from. `Asks` says this without reference to how it is
computed, and `Bindable` says of a whole declaration that all its usages can be understood and no
two of them ask for the same.

* `collect_eq_ok_iff` follows the usages one by one, with the bindings of those before, and
  `exists_collect_iff` says when all of them can be followed.
* `Binds` is what the lookup for one usage says: it provides what the usage asks for, and nothing
  else.
-/

namespace ScopeMerge.Contribution

open Checking

variable {t : SymbolTable} {d : Declaration}

namespace Binding

variable {usage : AnnotationUsage} {bound : Name} {binding : Binding}

/-! ## One usage -/

/-- A usage names the type to be bound. -/
def Names (t : SymbolTable) (usage : AnnotationUsage) (bound : Name) : Prop :=
  t.argument? usage Vocabulary.boundTypeParameter = some (.type bound)

/-- A declaration has one entry among its supertypes that says what it can be bound to. -/
def SoleSupertype (d : Declaration) (bound : Name) : Prop :=
  d.supertypes.filter (fun supertype => supertype ≠ ⟨"Any"⟩ ∧ supertype ≠ ⟨"kotlin.Any"⟩) = [bound]

/-- What a usage on a declaration asks for. -/
structure Asks (t : SymbolTable) (d : Declaration) (usage : AnnotationUsage)
    (binding : Binding) : Prop where
  boundType : Names t usage binding.boundType ∨
    (∀ bound, ¬ Names t usage bound) ∧ SoleSupertype d binding.boundType
  intoSet : binding.intoSet = true ↔
    t.argument? usage Vocabulary.multibindingParameter = some (.bool true)

theorem namedType?_eq_some_iff : namedType? t usage = some bound ↔ Names t usage bound := by
  unfold namedType? Names
  rw [Option.bind_eq_some_iff]
  constructor
  · rintro ⟨value, hvalue, htype⟩
    cases value <;> cases htype
    exact hvalue
  · intro hvalue
    exact ⟨_, hvalue, rfl⟩

theorem candidates_eq (d : Declaration) :
    candidates d = d.supertypes.filter
      fun supertype => supertype ≠ ⟨"Any"⟩ ∧ supertype ≠ ⟨"kotlin.Any"⟩ := by
  unfold candidates Vocabulary.trivialSupertypes
  refine List.filter_congr fun supertype _ => ?_
  simp

theorem inferredType_eq_ok_iff : inferredType d = .ok bound ↔ SoleSupertype d bound := by
  unfold inferredType SoleSupertype
  rw [← candidates_eq]
  match candidates d with
  | [] => simp
  | [sole] => simp
  | _ :: _ :: _ => simp

/-- Whether a usage asks to add to a set, false unless it says so. -/
theorem asBool?_getD_eq_true_iff {value? : Option AnnotationValue} :
    (value?.bind (·.asBool?)).getD false = true ↔ value? = some (.bool true) := by
  cases value? with
  | none => simp
  | some value => cases value <;> simp [AnnotationValue.asBool?]

theorem ofUsage_eq_ok_iff : ofUsage t d usage = .ok binding ↔ Asks t d usage binding := by
  have hfields : ofUsage t d usage = .ok binding ↔
      (namedType? t usage = some binding.boundType ∨
        namedType? t usage = none ∧ inferredType d = .ok binding.boundType) ∧
      ((t.argument? usage Vocabulary.multibindingParameter).bind (·.asBool?)).getD false =
        binding.intoSet := by
    obtain ⟨boundType, intoSet⟩ := binding
    unfold ofUsage
    cases namedType? t usage with
    | some named =>
        refine pure_eq_ok.trans ?_
        simp
    | none =>
        dsimp only
        rw [bind_eq_ok]
        simp [pure_eq_ok]
  have hnone : namedType? t usage = none ↔ ∀ bound, ¬ Names t usage bound := by
    simp only [Option.eq_none_iff_forall_ne_some, ne_eq, namedType?_eq_some_iff]
  rw [hfields, hnone, namedType?_eq_some_iff, inferredType_eq_ok_iff, Bool.eq_iff_iff,
    asBool?_getD_eq_true_iff]
  exact ⟨fun ⟨hbound, hset⟩ => ⟨hbound, hset.symm⟩, fun ⟨hbound, hset⟩ => ⟨hbound, hset.symm⟩⟩

theorem Asks.unique {other : Binding} (h : Asks t d usage binding) (h' : Asks t d usage other) :
    binding = other :=
  Except.ok.inj ((ofUsage_eq_ok_iff.mpr h).symm.trans (ofUsage_eq_ok_iff.mpr h'))

/-- A usage can be understood exactly when it names a type or one can be inferred. -/
theorem exists_asks_iff : (∃ binding, Asks t d usage binding) ↔
    (∃ bound, Names t usage bound) ∨ ∃ bound, SoleSupertype d bound := by
  let intoSet :=
    decide (t.argument? usage Vocabulary.multibindingParameter = some (.bool true))
  constructor
  · rintro ⟨binding, hbound | ⟨_, hsole⟩, _⟩
    · exact Or.inl ⟨_, hbound⟩
    · exact Or.inr ⟨_, hsole⟩
  · intro h
    by_cases hnamed : ∃ bound, Names t usage bound
    · obtain ⟨bound, hbound⟩ := hnamed
      exact ⟨⟨bound, intoSet⟩, Or.inl hbound, decide_eq_true_iff⟩
    · obtain ⟨bound, hsole⟩ := h.resolve_left hnamed
      exact ⟨⟨bound, intoSet⟩, Or.inr ⟨not_exists.mp hnamed, hsole⟩, decide_eq_true_iff⟩

/-! ## All usages -/

variable {usages : List AnnotationUsage} {earlier bindings : List Binding}

theorem collect_eq_ok_iff : collect t d earlier usages = .ok bindings ↔
    List.Forall₂ (Asks t d) usages bindings ∧ bindings.Nodup ∧
      ∀ binding ∈ bindings, binding ∉ earlier := by
  induction usages generalizing earlier bindings with
  | nil =>
      rw [collect, Except.ok.injEq, List.forall₂_nil_left_iff]
      constructor
      · rintro rfl
        exact ⟨rfl, List.nodup_nil, fun _ h => absurd h List.not_mem_nil⟩
      · exact fun h => h.1.symm
  | cons usage rest ih =>
      simp only [collect, bind_eq_ok, pure_eq_ok, refuseUnless_eq_ok, ih]
      constructor
      · rintro ⟨binding, hasks, _, hfresh, later, ⟨hlater, hnodup, hnew⟩, rfl⟩
        refine ⟨.cons (ofUsage_eq_ok_iff.mp hasks) hlater,
          List.nodup_cons.mpr ⟨fun h => hnew _ h List.mem_cons_self, hnodup⟩, ?_⟩
        rw [List.forall_mem_cons]
        exact ⟨by simpa using hfresh, fun other h hin => hnew other h (List.mem_cons_of_mem _ hin)⟩
      · rintro ⟨hall, hnodup, hnew⟩
        cases hall with
        | cons hasks hlater =>
          rename_i binding later
          obtain ⟨hnot, hnodup⟩ := List.nodup_cons.mp hnodup
          obtain ⟨hfresh, hnew⟩ := List.forall_mem_cons.mp hnew
          refine ⟨binding, ofUsage_eq_ok_iff.mpr hasks, (), by simpa using hfresh, later,
            ⟨hlater, hnodup, fun other h hin => ?_⟩, rfl⟩
          -- a later binding is neither this one nor one of those before
          rcases List.mem_cons.mp hin with rfl | hin
          · exact hnot h
          · exact hnew other h hin

theorem mem_iff_of_forall₂ (h : List.Forall₂ (Asks t d) usages bindings) :
    binding ∈ bindings ↔ ∃ usage ∈ usages, Asks t d usage binding := by
  induction h with
  | nil => simp
  | cons hasks _ ih =>
      rw [List.mem_cons, ih, List.exists_mem_cons_iff]
      refine or_congr_left ⟨?_, fun hagain => hagain.unique hasks⟩
      rintro rfl
      exact hasks

/-- Bindings are distinct exactly when no two usages ask for the same. -/
theorem nodup_iff_of_forall₂ (h : List.Forall₂ (Asks t d) usages bindings) :
    bindings.Nodup ↔ usages.Pairwise fun first second =>
      ∀ binding, Asks t d first binding → ¬ Asks t d second binding := by
  induction h with
  | nil => simp
  | cons hasks hlater ih =>
      rw [List.nodup_cons, List.pairwise_cons, ih, mem_iff_of_forall₂ hlater]
      refine and_congr_left fun _ => ⟨fun hnot second hsecond binding hfirst hagain => ?_, ?_⟩
      · exact hnot ⟨second, hsecond, hasks.unique hfirst ▸ hagain⟩
      · rintro hall ⟨second, hsecond, hagain⟩
        exact hall second hsecond _ hasks hagain

theorem exists_forall₂_iff : (∃ bindings, List.Forall₂ (Asks t d) usages bindings) ↔
    ∀ usage ∈ usages, ∃ binding, Asks t d usage binding := by
  induction usages with
  | nil => simp
  | cons usage rest ih =>
      rw [List.forall_mem_cons, ← ih]
      constructor
      · rintro ⟨_, _ | ⟨hasks, hrest⟩⟩
        exact ⟨⟨_, hasks⟩, _, hrest⟩
      · rintro ⟨⟨_, hasks⟩, _, hrest⟩
        exact ⟨_, .cons hasks hrest⟩

/-- The usages can be understood together exactly when each can be by itself and no two of them
ask for the same. -/
theorem exists_collect_iff : (∃ bindings, collect t d [] usages = .ok bindings) ↔
    (∀ usage ∈ usages, (∃ bound, Names t usage bound) ∨ ∃ bound, SoleSupertype d bound) ∧
    usages.Pairwise fun first second =>
      ∀ binding, Asks t d first binding → ¬ Asks t d second binding := by
  simp only [collect_eq_ok_iff, ← exists_asks_iff, ← exists_forall₂_iff]
  constructor
  · rintro ⟨bindings, hall, hnodup, _⟩
    exact ⟨⟨bindings, hall⟩, (nodup_iff_of_forall₂ hall).mp hnodup⟩
  · rintro ⟨⟨bindings, hall⟩, hdistinct⟩
    exact ⟨bindings, hall, (nodup_iff_of_forall₂ hall).mpr hdistinct,
      fun _ _ => List.not_mem_nil⟩

end Binding

open Binding

/-! ## The declaration -/

/-- Everything that a declaration has to fulfil to contribute its bindings. -/
structure Bindable (t : SymbolTable) (annotationType : Name) (d : Declaration) : Prop where
  visibility : d.visibility = .publicAccess
  kind : d.kind = .classType ∨ d.kind = .object
  scope : ∃ scope, Scope.resolve t d = .ok scope
  boundTypes : ∀ usage ∈ d.annotationsOf annotationType,
    (∃ bound, Names t usage bound) ∨ ∃ bound, SoleSupertype d bound
  distinct : (d.annotationsOf annotationType).Pairwise fun first second =>
    ∀ binding, Asks t d first binding → ¬ Asks t d second binding

/-- The function that provides a binding of a declaration. -/
structure Provides (d : Declaration) (binding : Binding) (function : MemberFunction) : Prop where
  returnType : function.returnType = some binding.boundType
  provides : ∃ usage ∈ function.annotations, usage.type = Vocabulary.provides
  intoSet : (∃ usage ∈ function.annotations, usage.type = Vocabulary.intoSet) ↔
    binding.intoSet = true
  /-- A class is passed in, and handed on under the name it came by. -/
  ofClass : d.kind = .classType → ∃ name,
    function.parameters = [{ name, type := d.name }] ∧ function.body = some (.forward name)
  /-- An object is there already. -/
  ofObject : d.kind = .object →
    function.parameters = [] ∧ function.body = some (.singleton d.name)

/-- The lookup for one usage on a declaration. -/
structure Binds (t : SymbolTable) (d : Declaration) (scope : Scope) (usage : AnnotationUsage)
    (lookup : Declaration) : Prop where
  standsFor : lookup.StandsFor d scope
  kind : lookup.kind = .interface
  annotations : lookup.annotations = [scopeRecord scope]
  supertypes : lookup.supertypes = []
  provider : ∃ binding function, Asks t d usage binding ∧ lookup.functions = [function] ∧
    Provides d binding function

theorem provides_provider (d : Declaration) (binding : Binding) :
    Provides d binding (provider d binding) where
  returnType := rfl
  provides := ⟨_, List.mem_cons_self, rfl⟩
  intoSet := by
    have hother : Vocabulary.provides ≠ Vocabulary.intoSet := by decide
    unfold provider
    cases binding.intoSet <;> simp [hother]
  ofClass hkind := by
    refine ⟨Text.decapitalize d.joinedSimpleName, ?_⟩
    simp [provider, hkind]
  ofObject hkind := by
    simp [provider, hkind]

theorem binds_lookup {usage : AnnotationUsage} {binding : Binding} (scope : Scope)
    (h : Asks t d usage binding) : Binds t d scope usage (Binding.lookup d scope binding) where
  standsFor := ⟨rfl, rfl, rfl, rfl, Or.inl rfl⟩
  kind := rfl
  annotations := rfl
  supertypes := rfl
  provider := ⟨binding, _, h, rfl, provides_provider d binding⟩

/-- **Bindings are contributed all or none.** They are contributed exactly when the declaration is
`Bindable`, and then every usage has its own lookup, in order, with one function that provides what
the usage asks for. -/
theorem bindingLookups_exact (t : SymbolTable) (annotationType : Name) (d : Declaration) :
    ((∃ lookups, bindingLookups t annotationType d = .ok lookups) ↔
      Bindable t annotationType d) ∧
    ∀ lookups, bindingLookups t annotationType d = .ok lookups →
      ∃ scope, Scope.resolve t d = .ok scope ∧
        List.Forall₂ (Binds t d scope) (d.annotationsOf annotationType) lookups := by
  refine ⟨?_, fun lookups h => ?_⟩
  · simp only [bindingLookups, requirePublic, bind_eq_ok, pure_eq_ok, refuseUnless_eq_ok]
    constructor
    · rintro ⟨_, _, hpublic, _, hkind, scope, hscope, bindings, hbindings, rfl⟩
      obtain ⟨hbound, hdistinct⟩ := exists_collect_iff.mp ⟨bindings, hbindings⟩
      exact {
        visibility := of_decide_eq_true hpublic
        kind := by simpa using hkind
        scope := ⟨scope, hscope⟩
        boundTypes := hbound
        distinct := hdistinct }
    · rintro ⟨hpublic, hkind, ⟨scope, hscope⟩, hbound, hdistinct⟩
      obtain ⟨bindings, hbindings⟩ := exists_collect_iff.mpr ⟨hbound, hdistinct⟩
      exact ⟨_, (), decide_eq_true hpublic, (), by simpa using hkind, scope, hscope, bindings,
        hbindings, rfl⟩
  · obtain ⟨scope, bindings, hscope, hbindings, rfl⟩ := bindingLookups_ok h
    refine ⟨scope, hscope, ?_⟩
    rw [List.forall₂_map_right_iff]
    exact (collect_eq_ok_iff.mp hbindings).1.imp fun _ _ => binds_lookup scope

end ScopeMerge.Contribution

namespace ScopeMerge

open Vocabulary

namespace Sample

/-- A class that is bound to its only telling supertype, and added to a set of another type. The
second usage gives its scope and type by position. -/
def wallClock : Declaration :=
  { Declaration.topLevel .classType "com.app" "WallClock" with
    supertypes := [⟨"kotlin.Any"⟩, ⟨"com.app.Clock"⟩]
    annotations :=
      [{ type := contributesBinding
         arguments := [{ name := some scopeParameter, value := .type appScope }] },
        { type := contributesBinding
          arguments :=
            [{ value := .type appScope }, { value := .type ⟨"com.app.Ticker"⟩ },
              { name := some multibindingParameter, value := .bool true }] }] }

def wallClockLookup (boundType : String) (intoSet : Bool) : Declaration :=
  Contribution.Binding.lookup wallClock
    { marker := appScope, source := .argument contributesBinding }
    { boundType := ⟨boundType⟩, intoSet }

end Sample

namespace Contribution

/-- The clock contributes one provider for each usage. -/
theorem wallClock_is_bound :
    bindingLookups SymbolTable.initial contributesBinding Sample.wallClock =
      .ok [Sample.wallClockLookup "com.app.Clock" false,
        Sample.wallClockLookup "com.app.Ticker" true] ∧
    Bindable SymbolTable.initial contributesBinding Sample.wallClock ∧
    ∃ scope, Scope.resolve SymbolTable.initial Sample.wallClock = .ok scope ∧
      List.Forall₂ (Binds SymbolTable.initial Sample.wallClock scope)
        (Sample.wallClock.annotationsOf contributesBinding)
        [Sample.wallClockLookup "com.app.Clock" false,
          Sample.wallClockLookup "com.app.Ticker" true] := by
  have hlookups : bindingLookups SymbolTable.initial contributesBinding Sample.wallClock =
      .ok [Sample.wallClockLookup "com.app.Clock" false,
        Sample.wallClockLookup "com.app.Ticker" true] := by
    decide
  obtain ⟨hiff, hexact⟩ :=
    bindingLookups_exact SymbolTable.initial contributesBinding Sample.wallClock
  exact ⟨hlookups, hiff.mp ⟨_, hlookups⟩, hexact _ hlookups⟩

end Contribution

end ScopeMerge
