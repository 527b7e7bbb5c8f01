import ScopeMerge.Proofs.Bindings

/-!
# Providers side by side

The lookups for one declaration all record its scope, so one merge takes them all and its
aggregate inherits their providers side by side. What tells them apart there is their names: the
parameters are those of the declaration and the same for all (`clashes_provider_iff`).

A provider is named after its declaration and the simple name of the type it is bound to. That is
less than what a binding is identified by. Two bindings are different and their providers are not

* when one adds to a set and the other does not;
* when the types they are bound to have one simple name in two packages.

Such bindings are accepted, each with its own lookup, and clash where the lookups are inherited.
`Apart` is what a declaration has to fulfil beyond `Bindable` for its providers not to clash.
-/

namespace ScopeMerge

/-- Two functions that cannot be told apart by their name and parameters. -/
def MemberFunction.Clashes (first second : MemberFunction) : Prop :=
  first.name = second.name ∧ first.parameters = second.parameters

instance (first second : MemberFunction) : Decidable (first.Clashes second) :=
  inferInstanceAs (Decidable (_ ∧ _))

namespace SymbolTable

/-- A declaration extends another one that the table sees, and has its functions. -/
structure Inherits (t : SymbolTable) (d ancestor : Declaration) : Prop where
  supertype : ancestor.name ∈ d.supertypes
  visible : t.find? ancestor.name = some ancestor

instance (t : SymbolTable) (d ancestor : Declaration) : Decidable (t.Inherits d ancestor) :=
  decidable_of_iff (ancestor.name ∈ d.supertypes ∧ t.find? ancestor.name = some ancestor)
    ⟨fun h => ⟨h.1, h.2⟩, fun h => ⟨h.supertype, h.visible⟩⟩

/-- A declaration inherits no two clashing functions from two of its ancestors. -/
def InheritsApart (t : SymbolTable) (d : Declaration) (ancestors : List Declaration) : Prop :=
  ∀ first ∈ ancestors, ∀ second ∈ ancestors, t.Inherits d first → t.Inherits d second →
    ∀ f ∈ first.functions, ∀ g ∈ second.functions, f.Clashes g → first = second

end SymbolTable

namespace Contribution

open Checking

variable {t : SymbolTable} {d : Declaration}

namespace Binding

variable {scope : Scope} {binding other : Binding} {bindings : List Binding}
  {usages : List AnnotationUsage}

theorem providerName_inj :
    providerName d binding = providerName d other ↔
      binding.boundType.simpleName = other.boundType.simpleName := by
  unfold providerName
  exact String.append_right_inj _

theorem clashes_provider_iff :
    (provider d binding).Clashes (provider d other) ↔
      binding.boundType.simpleName = other.boundType.simpleName := by
  constructor
  · rintro ⟨hname, _⟩
    exact providerName_inj.mp hname
  · intro h
    exact ⟨providerName_inj.mpr h, rfl⟩

/-- The provider alone says which binding a lookup is for. -/
theorem lookup_injective (d : Declaration) (scope : Scope) :
    Function.Injective (lookup d scope) := by
  intro binding other h
  have hprovider : provider d binding = provider d other :=
    List.singleton_inj.mp (congrArg Declaration.functions h)
  have hbound : binding.boundType = other.boundType :=
    Option.some.inj (congrArg MemberFunction.returnType hprovider)
  have hset : binding.intoSet = other.intoSet := by
    rw [Bool.eq_iff_iff, ← (provides_provider d binding).intoSet, hprovider,
      (provides_provider d other).intoSet]
  exact congrArg₂ Binding.mk hbound hset

/-- A relation along bindings is one along the usages that ask for them. -/
theorem pairwise_iff_of_forall₂ {R : Binding → Binding → Prop}
    (h : List.Forall₂ (Asks t d) usages bindings) :
    bindings.Pairwise R ↔ usages.Pairwise fun first second =>
      ∀ binding other, Asks t d first binding → Asks t d second other → R binding other := by
  induction h with
  | nil => simp
  | cons hasks hlater ih =>
      rw [List.pairwise_cons, List.pairwise_cons, ih]
      refine and_congr_left fun _ => ⟨?_, fun hall later hin => ?_⟩
      · intro hall second hsecond binding other hfirst hother
        rw [hfirst.unique hasks]
        exact hall other ((mem_iff_of_forall₂ hlater).mpr ⟨second, hsecond, hother⟩)
      · obtain ⟨second, hsecond, hlater⟩ := (mem_iff_of_forall₂ hlater).mp hin
        exact hall second hsecond _ _ hasks hlater

theorem functions_lookups (d : Declaration) (scope : Scope) (bindings : List Binding) :
    (bindings.map (lookup d scope)).flatMap (·.functions) = bindings.map (provider d) := by
  rw [List.flatMap_map, ← List.flatMap_singleton' (bindings.map (provider d)), List.flatMap_map]
  rfl

/-- Inherited side by side, providers clash exactly when they share a name. -/
theorem inheritsApart_iff {aggregate : Declaration}
    (hnodup : bindings.Nodup)
    (hinherits : ∀ lookup ∈ bindings.map (Binding.lookup d scope), t.Inherits aggregate lookup) :
    t.InheritsApart aggregate (bindings.map (Binding.lookup d scope)) ↔
      (bindings.map (·.boundType.simpleName)).Nodup := by
  constructor
  · intro h
    refine hnodup.map_on fun binding hbinding other hother hsame => ?_
    have hfirst := List.mem_map_of_mem (f := Binding.lookup d scope) hbinding
    have hsecond := List.mem_map_of_mem (f := Binding.lookup d scope) hother
    exact lookup_injective d scope <| h _ hfirst _ hsecond (hinherits _ hfirst)
      (hinherits _ hsecond) _ List.mem_cons_self _ List.mem_cons_self
      (clashes_provider_iff.mpr hsame)
  · intro h first hfirst second hsecond _ _ f hf g hg hclash
    obtain ⟨binding, hbinding, rfl⟩ := List.mem_map.mp hfirst
    obtain ⟨other, hother, rfl⟩ := List.mem_map.mp hsecond
    obtain rfl := List.mem_singleton.mp hf
    obtain rfl := List.mem_singleton.mp hg
    rw [List.inj_on_of_nodup_map h hbinding hother (clashes_provider_iff.mp hclash)]

end Binding

open Binding

/-- No two usages on a declaration ask for types with one simple name. -/
def Apart (t : SymbolTable) (annotationType : Name) (d : Declaration) : Prop :=
  (d.annotationsOf annotationType).Pairwise fun first second =>
    ∀ binding other, Asks t d first binding → Asks t d second other →
      binding.boundType.simpleName ≠ other.boundType.simpleName

/-- **The providers of one declaration clash exactly when two bound types share a simple name.** The
lookups of a declaration record one scope. Their providers have different names exactly when no two
usages ask for types with one simple name, and exactly then an aggregate that extends all the
lookups inherits no two of them with the same name and parameters. -/
theorem providers_apart_iff (t : SymbolTable) (annotationType : Name) (d : Declaration)
    {lookups : List Declaration} (h : bindingLookups t annotationType d = .ok lookups) :
    (∃ scope, Scope.resolve t d = .ok scope ∧
      ∀ lookup ∈ lookups, lookup.annotations = [scopeRecord scope]) ∧
    (((lookups.flatMap (·.functions)).map (·.name)).Nodup ↔ Apart t annotationType d) ∧
    ∀ (t' : SymbolTable) (aggregate : Declaration),
      (∀ lookup ∈ lookups, t'.Inherits aggregate lookup) →
        (t'.InheritsApart aggregate lookups ↔ Apart t annotationType d) := by
  obtain ⟨scope, bindings, hscope, hbindings, rfl⟩ := bindingLookups_ok h
  obtain ⟨hasks, hnodup, _⟩ := collect_eq_ok_iff.mp hbindings
  have hapart : (bindings.map (·.boundType.simpleName)).Nodup ↔ Apart t annotationType d := by
    rw [List.Nodup, List.pairwise_map]
    exact pairwise_iff_of_forall₂ hasks
  refine ⟨⟨scope, hscope, ?_⟩, ?_, fun t' aggregate hinherits => ?_⟩
  · rw [List.forall_mem_map]
    exact fun _ _ => rfl
  · have hnames : (bindings.map (provider d)).map (·.name) =
        (bindings.map (·.boundType.simpleName)).map ("provide" ++ d.joinedSimpleName ++ ·) := by
      simp [provider, providerName]
    rw [functions_lookups, hnames, ← hapart]
    exact List.nodup_map_iff fun _ _ => (String.append_right_inj _).mp
  · rw [← hapart]
    exact inheritsApart_iff hnodup hinherits

end Contribution

namespace Sample

/-- A clock that is bound to one simple name three times over: as it is, in a set, and in another
package. -/
def crowdedClock : Declaration :=
  { wallClock with
    annotations :=
      [{ type := Vocabulary.contributesBinding
         arguments := [{ value := .type appScope }] },
        { type := Vocabulary.contributesBinding
          arguments :=
            [{ value := .type appScope },
              { name := some Vocabulary.multibindingParameter, value := .bool true }] },
        { type := Vocabulary.contributesBinding
          arguments := [{ value := .type appScope }, { value := .type ⟨"org.time.Clock"⟩ }] }] }

/-- A table that sees some lookups. -/
def lookupTable (lookups : List Declaration) : SymbolTable :=
  { entries := [{ file := { id := ⟨"Lookups.kt"⟩, declarations := lookups }, isLocal := false }] }

/-- An aggregate that extends some lookups. -/
def aggregateOf (lookups : List Declaration) : Declaration :=
  { Declaration.topLevel .interface "com.app" "AppComponentMerged" with
    supertypes := lookups.map (·.name) }

def wallClockLookups : List Declaration :=
  [wallClockLookup "com.app.Clock" false, wallClockLookup "com.app.Ticker" true]

def crowdedClockLookups : List Declaration :=
  [wallClockLookup "com.app.Clock" false, wallClockLookup "com.app.Clock" true,
    wallClockLookup "org.time.Clock" false]

end Sample

namespace Contribution

/-- The two providers of the clock are told apart, and an aggregate inherits both. -/
theorem wallClock_providers_apart :
    ((Sample.wallClockLookups.flatMap (·.functions)).map (·.name)).Nodup ∧
    Apart SymbolTable.initial Vocabulary.contributesBinding Sample.wallClock ∧
    (Sample.lookupTable Sample.wallClockLookups).InheritsApart
      (Sample.aggregateOf Sample.wallClockLookups) Sample.wallClockLookups := by
  have hlookups : bindingLookups SymbolTable.initial Vocabulary.contributesBinding
      Sample.wallClock = .ok Sample.wallClockLookups := by
    decide
  have hnames : ((Sample.wallClockLookups.flatMap (·.functions)).map (·.name)).Nodup := by
    decide
  obtain ⟨_, hapart, hinherits⟩ :=
    providers_apart_iff SymbolTable.initial Vocabulary.contributesBinding Sample.wallClock hlookups
  exact ⟨hnames, hapart.mp hnames, (hinherits _ _ (by decide)).mpr (hapart.mp hnames)⟩

/-- All three providers of the crowded clock have one name, and an aggregate inherits them all. -/
theorem crowded_providers_clash :
    bindingLookups SymbolTable.initial Vocabulary.contributesBinding Sample.crowdedClock =
      .ok Sample.crowdedClockLookups ∧
    ¬ ((Sample.crowdedClockLookups.flatMap (·.functions)).map (·.name)).Nodup ∧
    (∀ lookup ∈ Sample.crowdedClockLookups,
      (Sample.lookupTable Sample.crowdedClockLookups).Inherits
        (Sample.aggregateOf Sample.crowdedClockLookups) lookup) ∧
    ∀ first ∈ Sample.crowdedClockLookups, ∀ second ∈ Sample.crowdedClockLookups,
      ∀ f ∈ first.functions, ∀ g ∈ second.functions, f.Clashes g := by
  decide

end Contribution

end ScopeMerge
