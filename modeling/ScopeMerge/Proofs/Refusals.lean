import ScopeMerge.Proofs.Bindings
import ScopeMerge.Proofs.Wiring

/-!
# Why a contribution is refused

A contribution is a sequence of checks, and the first that fails gives the error. This file
turns the sequences around: from the error that came out to the check that gave it.

Every error is reported at the declaration that was to contribute
(`symbol?_of_bindingLookups` and so on), with one exception: what is wrong with the factory of
a subcomponent is reported at the factory. Only two or more usages of one binding annotation
lead to a duplicate (`exists_duplicate_iff`, `not_duplicate_of_interfaceLookups` and so on).
-/

namespace ScopeMerge

open Vocabulary Checking

/-! ## Sequences of checks -/

namespace Checking

variable {ε α β : Type} {error : ε}

theorem bind_eq_error {step : Except ε α} {next : α → Except ε β} :
    (step >>= next) = .error error ↔
      step = .error error ∨ ∃ value, step = .ok value ∧ next value = .error error := by
  cases step <;> simp [bind, Except.bind]

theorem map_eq_error {step : Except ε α} {f : α → β} :
    step.map f = .error error ↔ step = .error error := by
  cases step <;> simp [Except.map]

theorem refuseUnless_eq_error {condition : Bool} {cause : ε} :
    refuseUnless condition cause = .error error ↔ condition = false ∧ cause = error := by
  cases condition <;> simp [refuseUnless]

theorem pure_ne_error {value : α} : (pure value : Except ε α) ≠ .error error := by
  simp [pure, Except.pure]

end Checking

/-- The error that a declaration binds the same type twice in the same way. -/
def MergeError.isDuplicate : MergeError → Bool
  | duplicateContribution _ _ => true
  | _ => false

variable {t : SymbolTable} {annotationType : Name} {d : Declaration} {error : MergeError}

theorem MergeError.ConcernsScopeOf.not_duplicate (h : error.ConcernsScopeOf d) :
    error.isDuplicate = false := by
  obtain ⟨hscope, _⟩ := h
  cases error <;> first | rfl | cases hscope

namespace Contribution

theorem requirePublic_error (h : requirePublic d = .error error) : error = .notPublic d.name :=
  (refuseUnless_eq_error.mp h).2.symm

/-! ## Custom annotations and interfaces -/

theorem markers_error (h : markers d = .error error) :
    error = .notAnnotationClass d.name contributingAnnotation ∨ error = .notPublic d.name := by
  unfold markers marker at h
  rcases bind_eq_error.mp (map_eq_error.mp h) with h | ⟨_, _, h⟩
  · exact Or.inl (refuseUnless_eq_error.mp h).2.symm
  · rcases bind_eq_error.mp h with h | ⟨_, _, h⟩
    · exact Or.inr (requirePublic_error h)
    · exact absurd h pure_ne_error

theorem symbol?_of_markers (h : markers d = .error error) : error.symbol? = some d.name := by
  rcases markers_error h with rfl | rfl <;> rfl

theorem interfaceLookups_error (h : interfaceLookups t annotationType d = .error error) :
    error = .notPublic d.name ∨ error = .notInterface d.name annotationType ∨
      error.ConcernsScopeOf d := by
  unfold interfaceLookups interfaceLookup at h
  rcases bind_eq_error.mp (map_eq_error.mp h) with h | ⟨_, _, h⟩
  · exact Or.inl (requirePublic_error h)
  · rcases bind_eq_error.mp h with h | ⟨_, _, h⟩
    · exact Or.inr (Or.inl (refuseUnless_eq_error.mp h).2.symm)
    · rcases bind_eq_error.mp h with h | ⟨_, _, h⟩
      · exact Or.inr (Or.inr (Scope.resolve_error h))
      · exact absurd h pure_ne_error

theorem symbol?_of_interfaceLookups (h : interfaceLookups t annotationType d = .error error) :
    error.symbol? = some d.name := by
  rcases interfaceLookups_error h with rfl | rfl | hscope
  · rfl
  · rfl
  · exact hscope.2

/-! ## Bindings -/

namespace Binding

variable {usages : List AnnotationUsage} {usage : AnnotationUsage} {earlier : List Binding}

theorem inferredType_error (h : inferredType d = .error error) :
    error = .noBoundType d.name ∨ ∃ candidates, error = .ambiguousBoundType d.name candidates := by
  unfold inferredType at h
  split at h
  · exact Or.inl (Except.error.inj h).symm
  · cases h
  · exact Or.inr ⟨_, (Except.error.inj h).symm⟩

/-- A usage is not understood if it names no type and none can be inferred. -/
theorem ofUsage_error (h : ofUsage t d usage = .error error) : inferredType d = .error error := by
  unfold ofUsage at h
  cases hnamed : namedType? t usage with
  | some bound =>
      rw [hnamed] at h
      exact absurd h pure_ne_error
  | none =>
      rw [hnamed] at h
      rcases bind_eq_error.mp h with h | ⟨_, _, h⟩
      · exact h
      · exact absurd h pure_ne_error

theorem collect_error (h : collect t d earlier usages = .error error) :
    (∃ usage ∈ usages, ofUsage t d usage = .error error) ∨
      ∃ bound, error = .duplicateContribution d.name bound := by
  induction usages generalizing earlier with
  | nil => cases h
  | cons usage rest ih =>
      rw [collect] at h
      rcases bind_eq_error.mp h with h | ⟨binding, _, h⟩
      · exact Or.inl ⟨usage, List.mem_cons_self, h⟩
      · rcases bind_eq_error.mp h with h | ⟨_, _, h⟩
        · exact Or.inr ⟨binding.boundType, (refuseUnless_eq_error.mp h).2.symm⟩
        · rcases bind_eq_error.mp h with h | ⟨_, _, h⟩
          · refine (ih h).imp_left fun hrest => ?_
            obtain ⟨u, hu, herror⟩ := hrest
            exact ⟨u, List.mem_cons_of_mem _ hu, herror⟩
          · exact absurd h pure_ne_error

end Binding

open Binding

/-- The check that gave the error. -/
theorem bindingLookups_error (h : bindingLookups t annotationType d = .error error) :
    (d.isPublic = false ∧ error = .notPublic d.name) ∨
      ((d.kind = .classType || d.kind = .object) = false ∧
        error = .notAClass d.name annotationType) ∨
      Scope.resolve t d = .error error ∨
      collect t d [] (d.annotationsOf annotationType) = .error error := by
  unfold bindingLookups at h
  rcases bind_eq_error.mp h with h | ⟨_, _, h⟩
  · exact Or.inl ((refuseUnless_eq_error.mp h).imp_right Eq.symm)
  · rcases bind_eq_error.mp h with h | ⟨_, _, h⟩
    · exact Or.inr (Or.inl ((refuseUnless_eq_error.mp h).imp_right Eq.symm))
    · rcases bind_eq_error.mp h with h | ⟨_, _, h⟩
      · exact Or.inr (Or.inr (Or.inl h))
      · rcases bind_eq_error.mp h with h | ⟨_, _, h⟩
        · exact Or.inr (Or.inr (Or.inr h))
        · exact absurd h pure_ne_error

theorem symbol?_of_bindingLookups (h : bindingLookups t annotationType d = .error error) :
    error.symbol? = some d.name := by
  rcases bindingLookups_error h with ⟨_, rfl⟩ | ⟨_, rfl⟩ | hscope | hcollect
  · rfl
  · rfl
  · exact (Scope.resolve_error hscope).2
  · rcases collect_error hcollect with ⟨_, _, hu⟩ | ⟨_, rfl⟩
    · rcases inferredType_error (ofUsage_error hu) with rfl | ⟨_, rfl⟩ <;> rfl
    · rfl

/-- Everything that a declaration has to fulfil to contribute its bindings, except that its usages
may repeat each other. -/
structure Sound (t : SymbolTable) (annotationType : Name) (d : Declaration) : Prop where
  visibility : d.visibility = .publicAccess
  kind : d.kind = .classType ∨ d.kind = .object
  scope : ∃ scope, Scope.resolve t d = .ok scope
  boundTypes : ∀ usage ∈ d.annotationsOf annotationType, ∃ binding, Asks t d usage binding

/-- No two usages of an annotation on a declaration ask for the same. -/
def Unrepeated (t : SymbolTable) (annotationType : Name) (d : Declaration) : Prop :=
  (d.annotationsOf annotationType).Pairwise fun first second =>
    ∀ binding, Asks t d first binding → ¬ Asks t d second binding

theorem Sound.exists_lookups (h : Sound t annotationType d)
    (hdistinct : Unrepeated t annotationType d) :
    ∃ lookups, bindingLookups t annotationType d = .ok lookups :=
  (bindingLookups_exact t annotationType d).1.mpr
    ⟨h.visibility, h.kind, h.scope, fun usage hu => exists_asks_iff.mp (h.boundTypes usage hu),
      hdistinct⟩

/-- **A sound declaration is refused as a duplicate exactly if two usages ask for the same.** -/
theorem exists_duplicate_iff (h : Sound t annotationType d) :
    (∃ bound, bindingLookups t annotationType d =
        .error (.duplicateContribution d.name bound)) ↔ ¬ Unrepeated t annotationType d := by
  refine ⟨?_, ?_⟩
  · rintro ⟨bound, hduplicate⟩ hdistinct
    obtain ⟨lookups, hlookups⟩ := h.exists_lookups hdistinct
    rw [hlookups] at hduplicate
    cases hduplicate
  · intro hrepeats
    cases hresult : bindingLookups t annotationType d with
    | ok lookups =>
        obtain ⟨hok, _⟩ := bindingLookups_exact t annotationType d
        exact absurd (hok.mp ⟨lookups, hresult⟩).distinct hrepeats
    | error error =>
        -- every check but the last one passes
        rcases bindingLookups_error hresult with ⟨hpublic, _⟩ | ⟨hkind, _⟩ | hscope | hcollect
        · rw [show d.isPublic = true from decide_eq_true h.visibility] at hpublic
          cases hpublic
        · rcases h.kind with hclass | hobject
          · simp [hclass] at hkind
          · simp [hobject] at hkind
        · obtain ⟨scope, hok⟩ := h.scope
          rw [hok] at hscope
          cases hscope
        · rcases collect_error hcollect with ⟨usage, hu, hfails⟩ | ⟨bound, rfl⟩
          · obtain ⟨binding, hasks⟩ := h.boundTypes usage hu
            rw [ofUsage_eq_ok_iff.mpr hasks] at hfails
            cases hfails
          · exact ⟨bound, rfl⟩

end Contribution

/-! ## Subcomponents -/

namespace SubcomponentShape

variable {subcomponent factory : Declaration}

theorem soleFactory_error (h : soleFactory t subcomponent = .error error) :
    error = .missingFactory subcomponent.name ∨
      ∃ names, error = .multipleFactories subcomponent.name names := by
  unfold soleFactory at h
  split at h
  · exact Or.inl (Except.error.inj h).symm
  · cases h
  · exact Or.inr ⟨_, (Except.error.inj h).symm⟩

theorem factoryFunction_error (h : factoryFunction subcomponent factory = .error error) :
    error = .notPublic factory.name ∨ error = .notInterface factory.name subcomponentFactory ∨
      (∃ count, error = .factoryFunctionCount factory.name count) ∨
      ∃ actual, error = .factoryReturnType factory.name subcomponent.name actual := by
  unfold factoryFunction at h
  rcases bind_eq_error.mp h with h | ⟨_, _, h⟩
  · exact Or.inl (Contribution.requirePublic_error h)
  · rcases bind_eq_error.mp h with h | ⟨_, _, h⟩
    · exact Or.inr (Or.inl (refuseUnless_eq_error.mp h).2.symm)
    · rcases bind_eq_error.mp h with h | ⟨function, _, h⟩
      · unfold soleFunction at h
        split at h
        · cases h
        · exact Or.inr (Or.inr (Or.inl ⟨_, (Except.error.inj h).symm⟩))
      · rcases bind_eq_error.mp h with h | ⟨_, _, h⟩
        · exact Or.inr (Or.inr (Or.inr ⟨_, (refuseUnless_eq_error.mp h).2.symm⟩))
        · exact absurd h pure_ne_error

theorem ofSubcomponent_error (h : ofSubcomponent t subcomponent = .error error) :
    error = .notPublic subcomponent.name ∨ error = .notInterfaceOrAbstract subcomponent.name ∨
      error.ConcernsScopeOf subcomponent ∨ soleFactory t subcomponent = .error error ∨
      ∃ factory, soleFactory t subcomponent = .ok factory ∧
        factoryFunction subcomponent factory = .error error := by
  unfold ofSubcomponent at h
  rcases bind_eq_error.mp h with h | ⟨_, _, h⟩
  · exact Or.inl (Contribution.requirePublic_error h)
  · rcases bind_eq_error.mp h with h | ⟨_, _, h⟩
    · exact Or.inr (Or.inl (refuseUnless_eq_error.mp h).2.symm)
    · rcases bind_eq_error.mp h with h | ⟨_, _, h⟩
      · exact Or.inr (Or.inr (Or.inl (Scope.resolve_error h)))
      · rcases bind_eq_error.mp h with h | ⟨factory, hfactory, h⟩
        · exact Or.inr (Or.inr (Or.inr (Or.inl h)))
        · rcases bind_eq_error.mp h with h | ⟨_, _, h⟩
          · exact Or.inr (Or.inr (Or.inr (Or.inr ⟨factory, hfactory, h⟩)))
          · exact absurd h pure_ne_error

theorem not_duplicate_of_ofSubcomponent (h : ofSubcomponent t subcomponent = .error error) :
    error.isDuplicate = false := by
  rcases ofSubcomponent_error h with rfl | rfl | hscope | hsole | ⟨factory, _, hfunction⟩
  · rfl
  · rfl
  · exact hscope.not_duplicate
  · rcases soleFactory_error hsole with rfl | ⟨_, rfl⟩ <;> rfl
  · rcases factoryFunction_error hfunction with rfl | rfl | ⟨_, rfl⟩ | ⟨_, rfl⟩ <;> rfl

theorem enclosing_error (h : enclosing t factory = .error error) :
    error = .factoryNotNested factory.name := by
  unfold enclosing at h
  split at h
  · cases h
  · exact (Except.error.inj h).symm

end SubcomponentShape

namespace Contribution

open SubcomponentShape

/-! ## Nothing else is a duplicate -/

theorem not_duplicate_of_markers (h : markers d = .error error) : error.isDuplicate = false := by
  rcases markers_error h with rfl | rfl <;> rfl

theorem not_duplicate_of_interfaceLookups (h : interfaceLookups t annotationType d = .error error) :
    error.isDuplicate = false := by
  rcases interfaceLookups_error h with rfl | rfl | hscope
  · rfl
  · rfl
  · exact hscope.not_duplicate

theorem not_duplicate_of_subcomponentLookups (h : subcomponentLookups t d = .error error) :
    error.isDuplicate = false := by
  unfold subcomponentLookups subcomponentLookup at h
  rcases bind_eq_error.mp (map_eq_error.mp h) with h | ⟨_, _, h⟩
  · exact not_duplicate_of_ofSubcomponent h
  · rcases bind_eq_error.mp h with h | ⟨_, _, h⟩
    · exact (Scope.resolve_error h).not_duplicate
    · exact absurd h pure_ne_error

theorem not_duplicate_of_strayFactoryCheck (h : strayFactoryCheck t d = .error error) :
    error.isDuplicate = false := by
  rw [enclosing_error (map_eq_error.mp h)]
  rfl

end Contribution

end ScopeMerge
