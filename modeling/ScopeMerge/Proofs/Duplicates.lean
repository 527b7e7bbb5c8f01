import ScopeMerge.Proofs.Correspondence
import ScopeMerge.Proofs.Refusals
import ScopeMerge.Proofs.Reporting

/-!
# Bindings that are contributed twice

A declaration that asks for one binding twice contributes none of it. How the user hears of
this depends on the annotations. Each of the two binding annotations, the native one and the
legacy one, has a processor of its own, and a processor compares the usages of its annotation
only. So

* two usages of *one* annotation are reported as a duplicate, at the declaration;
* a usage of one and a usage of the *other* are each fine by themselves. Both lead to a file,
  the two files have one identity, and the second one is refused with an error that names no
  declaration.

`duplicate_reported_iff` is the first of these, `shared_binding_is_refused` the second.

An entry does not keep the error that it was made from, only its words. That no other error
is put into the words of a duplicate (`eq_duplicate_of_ofError`) is shown first.
-/

namespace ScopeMerge

open Vocabulary Contribution Binding

/-! ## The words of a duplicate -/

namespace MergeError

variable {d bound : Name} {error : MergeError} {text before more : String}

theorem toList_duplicate (d bound : Name) : (duplicateContribution d bound).message.toList =
    d.text.toList ++ (" contributes a binding for ".toList ++
      (bound.text.toList ++ " more than once".toList)) := by
  show (d.text ++ " contributes a binding for " ++ bound.text ++ " more than once").toList = _
  simp only [String.toList_append, List.append_assoc]

/-- A text ends differently. What it ends in is given by its letters, as a literal stands for
them. -/
theorem ne_duplicate_of_end {ending : List Char} (h : text = before ++ String.ofList ending)
    (hend : ¬ (ending <:+ " more than once".toList ∨ " more than once".toList <:+ ending)) :
    text ≠ (duplicateContribution d bound).message := by
  intro hsame
  have hlist := congrArg String.toList (h.symm.trans hsame)
  rw [toList_duplicate, String.toList_append, String.toList_ofList, ← List.append_assoc,
    ← List.append_assoc] at hlist
  exact hend (List.suffix_or_suffix_of_suffix (hlist ▸ List.suffix_append _ _)
    (List.suffix_append _ _))

/-- A text goes on differently after the name. -/
theorem ne_duplicate_of_continuation {next : List Char}
    (h : text = d.text ++ String.ofList next ++ more)
    (hnext : ¬ (next <+: " contributes a binding for ".toList ∨
      " contributes a binding for ".toList <+: next)) :
    text ≠ (duplicateContribution d bound).message := by
  intro hsame
  have hlist := congrArg String.toList (h.symm.trans hsame)
  rw [toList_duplicate, String.toList_append, String.toList_append, String.toList_ofList,
    List.append_assoc] at hlist
  have hrest := List.append_cancel_left hlist
  exact hnext (List.prefix_or_prefix_of_prefix (hrest ▸ List.prefix_append _ _)
    (List.prefix_append _ _))

/-- What stands before a text on one side and after it on the other is made of the same letters. -/
theorem count_eq_of_shifted {before middle after other rest : List Char}
    (hlen : before.length ≤ other.length)
    (h : before ++ (middle ++ after) = middle ++ (other ++ rest)) (c : Char) :
    before.count c = (other.take before.length).count c := by
  have hprefix : before ++ middle = middle ++ other.take before.length := by
    have htake := congrArg (List.take (before.length + middle.length)) h
    rw [← List.append_assoc, ← List.append_assoc, List.take_left' (by simp), List.append_assoc,
      Nat.add_comm, List.take_length_add_append, List.take_append_of_le_length hlen] at htake
    exact htake
  have hcount := congrArg (List.count c) hprefix
  rw [List.count_append, List.count_append] at hcount
  omega

/-- A text has the name later. The name may begin like the text itself, so it is the letters before
it that are compared. -/
theorem ne_duplicate_of_start {start : List Char} (c : Char)
    (h : text = String.ofList start ++ d.text ++ more)
    (hlen : start.length ≤ " contributes a binding for ".toList.length)
    (hcount : start.count c ≠ (" contributes a binding for ".toList.take start.length).count c) :
    text ≠ (duplicateContribution d bound).message := by
  intro hsame
  have hlist := congrArg String.toList (h.symm.trans hsame)
  rw [toList_duplicate, String.toList_append, String.toList_append, String.toList_ofList,
    List.append_assoc] at hlist
  exact hcount (count_eq_of_shifted hlen hlist c)

/-- **Only a duplicate is reported as one.** -/
theorem eq_duplicate_of_ofError
    (h : Diagnostic.ofError error = .ofError (.duplicateContribution d bound)) :
    ∃ other, error = .duplicateContribution d other := by
  have hsymbol : error.symbol? = some d := congrArg Diagnostic.symbol h
  have hmessage : error.message = (duplicateContribution d bound).message :=
    congrArg Diagnostic.message h
  cases error with
  | duplicateContribution n other =>
      obtain rfl := Option.some.inj hsymbol
      exact ⟨other, rfl⟩
  | fileAlreadyExists id => cases hsymbol
  | notPublic n | notInterfaceOrAbstract n | missingScope n | noBoundType n | missingFactory n
  | factoryNotNested n =>
      exact absurd hmessage (ne_duplicate_of_end rfl (by decide))
  | notInterface n a | notAClass n a | notAnnotationClass n a | noScopeArgument n a
  | redundantExplicitScope n a | ambiguousBoundType n a | supertypeNotDeclared n a =>
      exact absurd hmessage (ne_duplicate_of_end rfl (by decide))
  | unsupportedLegacyParameter n a p =>
      exact absurd hmessage (ne_duplicate_of_end rfl (by decide))
  | conflictingScopes n scopes omitted =>
      obtain rfl := Option.some.inj hsymbol
      exact absurd hmessage (ne_duplicate_of_continuation String.append_assoc (by decide))
  | scopeMismatch n explicit classLevel =>
      obtain rfl := Option.some.inj hsymbol
      exact absurd hmessage
        (ne_duplicate_of_continuation (String.append_assoc.trans String.append_assoc) (by decide))
  | multipleFactories n factories =>
      obtain rfl := Option.some.inj hsymbol
      exact absurd hmessage
        (ne_duplicate_of_start 'u' String.append_assoc (by decide) (by decide))
  | factoryFunctionCount n count =>
      obtain rfl := Option.some.inj hsymbol
      exact absurd hmessage
        (ne_duplicate_of_start 'f' String.append_assoc (by decide) (by decide))
  | factoryReturnType n expected actual =>
      obtain rfl := Option.some.inj hsymbol
      exact absurd hmessage
        (ne_duplicate_of_start 'h'
          (String.append_assoc.trans (String.append_assoc.trans String.append_assoc))
          (by decide) (by decide))
  | subcomponentCycle n lineage =>
      obtain rfl := Option.some.inj hsymbol
      exact absurd hmessage
        (ne_duplicate_of_start 'm' String.append_assoc (by decide) (by decide))
  | unknownDeclaration n =>
      obtain rfl := Option.some.inj hsymbol
      exact absurd hmessage
        (ne_duplicate_of_start 'f' String.append_empty.symm (by decide) (by decide))
  | duplicateDeclaration n =>
      obtain rfl := Option.some.inj hsymbol
      exact absurd hmessage
        (ne_duplicate_of_start 'w' String.append_empty.symm (by decide) (by decide))

end MergeError

/-! ## Who complains of a duplicate -/

variable {options : Options} {t : SymbolTable} {annotationType : Name} {d : Declaration}
  {error : MergeError} {n bound : Name}

namespace Contribution

/-- Two usages on a declaration, of the native annotation or of the legacy one or of one each, ask
for the same binding. -/
def AsksTwice (t : SymbolTable) (d : Declaration) : Prop :=
  ¬ (d.annotationsOf contributesBinding ++ d.annotationsOf legacyContributesBinding).Pairwise
    fun first second => ∀ binding, Asks t d first binding → ¬ Asks t d second binding

theorem isAnnotatedWith_of_usage {usage : AnnotationUsage}
    (hu : usage ∈ d.annotationsOf annotationType) : d.isAnnotatedWith annotationType = true :=
  List.any_eq_true.mpr ⟨usage, List.mem_filter.mp hu⟩

theorem isAnnotatedWith_of_repeats (h : ¬ Unrepeated t annotationType d) :
    d.isAnnotatedWith annotationType = true := by
  cases husages : d.annotationsOf annotationType with
  | nil =>
      unfold Unrepeated at h
      rw [husages] at h
      exact absurd List.Pairwise.nil h
  | cons usage rest =>
      have hu : usage ∈ d.annotationsOf annotationType := by
        rw [husages]
        exact List.mem_cons_self
      exact isAnnotatedWith_of_usage hu

/-- A duplicate is reported at the declaration that asks for it. -/
theorem bindingLookups_duplicate
    (h : bindingLookups t annotationType d = .error (.duplicateContribution n bound)) :
    d.name = n :=
  (Option.some.inj (symbol?_of_bindingLookups h)).symm

/-- A binding that a usage asks for is among the lookups. -/
theorem exists_lookup_of_asks {es : List Declaration}
    (h : bindingLookups t annotationType d = .ok es) {usage : AnnotationUsage}
    (hu : usage ∈ d.annotationsOf annotationType) {binding : Binding}
    (hasks : Asks t d usage binding) : ∃ scope, Binding.lookup d scope binding ∈ es := by
  obtain ⟨scope, bindings, _, hbindings, rfl⟩ := bindingLookups_ok h
  have hall := (collect_eq_ok_iff.mp hbindings).1
  exact ⟨scope, List.mem_map_of_mem ((mem_iff_of_forall₂ hall).mpr ⟨usage, hu, hasks⟩)⟩

end Contribution

open Deed

/-- Only a binding that is asked for twice is complained of as a duplicate. -/
theorem Processor.duplicate_of_complain_mem {processor : Processor} {taken : Taken}
    (h : complain (.duplicateContribution n bound) ∈ processor.deeds options t taken) :
    ∃ annotationType ∈ [Vocabulary.contributesBinding, legacyContributesBinding],
      ∃ d ∈ t.delivered annotationType,
        bindingLookups t annotationType d = .error (.duplicateContribution n bound) := by
  unfold Processor.deeds at h
  cases processor with
  | contributingAnnotations =>
      obtain ⟨d, _, h⟩ := List.mem_flatMap.mp h
      cases not_duplicate_of_markers (complain_mem_ofOutcome.mp h)
  | contributesTo =>
      obtain ⟨d, _, h⟩ := List.mem_flatMap.mp h
      cases not_duplicate_of_interfaceLookups (complain_mem_ofOutcome.mp h)
  | contributesBinding =>
      obtain ⟨d, hd, h⟩ := List.mem_flatMap.mp h
      exact ⟨_, List.mem_cons_self, d, (Round.untaken_sublist _ _).subset hd,
        complain_mem_ofOutcome.mp h⟩
  | contributesSubcomponent =>
      rcases List.mem_append.mp h with h | h
      · obtain ⟨d, _, h⟩ := List.mem_flatMap.mp h
        cases not_duplicate_of_subcomponentLookups (complain_mem_ofOutcome.mp h)
      · obtain ⟨d, _, h⟩ := List.mem_flatMap.mp h
        cases not_duplicate_of_strayFactoryCheck (complain_mem_ofOutcome.mp h)
  | legacy =>
      have hcomplaints : ∀ (legacy : LegacyAnnotation) (d : Declaration),
          .duplicateContribution n bound ∉ legacy.complaints t d := by
        intro legacy d hmem
        obtain ⟨_, _, h⟩ := List.mem_map.mp hmem
        cases h
      rcases List.mem_append.mp h with h | h
      · obtain ⟨d, _, h⟩ := List.mem_flatMap.mp h
        cases not_duplicate_of_interfaceLookups
          ((complain_mem_ofLegacy h).resolve_left (hcomplaints _ d))
      · obtain ⟨d, hd, h⟩ := List.mem_flatMap.mp h
        exact ⟨_, List.mem_cons_of_mem _ (List.mem_singleton_self _), d,
          (Round.untaken_sublist _ _).subset hd,
          (complain_mem_ofLegacy h).resolve_left (hcomplaints _ d)⟩
  | mergeComponent => cases h

namespace Session

variable {inputs : List Input}

/-- A source that contributes bindings and has nothing wrong with it, except that it may contribute
a binding twice. -/
structure BindingSource (inputs : List Input) (d : Declaration) : Prop where
  source : d ∈ sourceDeclarations inputs
  visible : (firstTable inputs).find? d.name = some d
  native : Sound (firstTable inputs) contributesBinding d
  legacy : Sound (firstTable inputs) legacyContributesBinding d
  supported : LegacyAnnotation.contributesBinding.unsupportedParameters (firstTable inputs) d = []

/-! ## What is done with a declaration -/

theorem BindingSource.deeds_of_native (hd : BindingSource inputs d)
    (hannotated : d.isAnnotatedWith contributesBinding = true) {deed : Deed}
    (h : deed ∈ ofOutcome (bindingLookups (firstTable inputs) contributesBinding d)) :
    deed ∈ Processor.contributesBinding.deeds options (firstTable inputs) {} :=
  List.mem_flatMap.mpr ⟨d, mem_untaken_first hd.source hd.visible hannotated, h⟩

theorem BindingSource.deeds_of_legacy (hd : BindingSource inputs d)
    (hannotated : d.isAnnotatedWith legacyContributesBinding = true) {deed : Deed}
    (h : deed ∈ ofOutcome (bindingLookups (firstTable inputs) legacyContributesBinding d)) :
    deed ∈ Processor.legacy.deeds options (firstTable inputs) {} := by
  refine List.mem_append_right _ (List.mem_flatMap.mpr
    ⟨d, mem_untaken_first hd.source hd.visible hannotated, ?_⟩)
  rw [ofLegacy_eq_ofOutcome hd.supported]
  exact h

/-- **A duplicate is reported exactly if usages of one annotation ask for the same.** -/
theorem duplicate_reported_iff
    (hon : ∀ processor ∈ Processor.all, options.isDisabled processor.id = false)
    (hd : BindingSource inputs d)
    (hmerge : Round.mergeDeeds options (firstTable inputs) {} = []) :
    (∃ bound, .ofError (.duplicateContribution d.name bound) ∈
        Deed.entries [] (firstDeeds options inputs)) ↔
      ¬ Unrepeated (firstTable inputs) contributesBinding d ∨
        ¬ Unrepeated (firstTable inputs) legacyContributesBinding d := by
  refine ⟨?_, ?_⟩
  · rintro ⟨bound, hentry⟩
    rcases Deed.mem_entries_iff.mp hentry with ⟨error, hmem, hsame⟩ | ⟨_, _, _, h⟩ | ⟨_, _, h⟩
    · obtain ⟨other, rfl⟩ := MergeError.eq_duplicate_of_ofError hsame.symm
      unfold firstDeeds at hmem
      rw [hmerge, List.append_nil] at hmem
      obtain ⟨processor, _, hmem⟩ := List.mem_flatMap.mp hmem
      obtain ⟨annotationType, hbinding, e, he, hfails⟩ :=
        Processor.duplicate_of_complain_mem hmem
      -- the table finds `e` under its name, and that is the name of `d`
      have hfind := SymbolTable.find?_of_delivered he
      rw [bindingLookups_duplicate hfails, hd.visible] at hfind
      obtain rfl := Option.some.inj hfind
      rcases List.mem_cons.mp hbinding with rfl | hbinding
      · exact Or.inl ((exists_duplicate_iff hd.native).mp ⟨other, hfails⟩)
      · obtain rfl := List.mem_singleton.mp hbinding
        exact Or.inr ((exists_duplicate_iff hd.legacy).mp ⟨other, hfails⟩)
    -- a warning is no error, and an identity that is taken is reported at no declaration
    · cases congrArg Diagnostic.severity h
    · cases congrArg Diagnostic.symbol h
  · have henabled : ∀ processor ∈ Round.recorders, processor ∈ Round.recording options := by
      rw [recording_eq hon]
      exact fun _ hp => hp
    rintro (hrepeats | hrepeats)
    · obtain ⟨bound, hfails⟩ := (exists_duplicate_iff hd.native).mpr hrepeats
      refine ⟨bound, mem_entries_first (henabled .contributesBinding (by decide)) ?_⟩
      exact hd.deeds_of_native (isAnnotatedWith_of_repeats hrepeats)
        (complain_mem_ofOutcome.mpr hfails)
    · obtain ⟨bound, hfails⟩ := (exists_duplicate_iff hd.legacy).mpr hrepeats
      refine ⟨bound, mem_entries_first (henabled .legacy (by decide)) ?_⟩
      exact hd.deeds_of_legacy (isAnnotatedWith_of_repeats hrepeats)
        (complain_mem_ofOutcome.mpr hfails)

/-- **A binding that both annotations ask for is refused without a word on the declaration.** -/
theorem shared_binding_is_refused
    (hon : ∀ processor ∈ Processor.all, options.isDisabled processor.id = false)
    (hd : BindingSource inputs d)
    (hnative : Unrepeated (firstTable inputs) contributesBinding d)
    (hlegacy : Unrepeated (firstTable inputs) legacyContributesBinding d)
    {first second : AnnotationUsage} (hfirst : first ∈ d.annotationsOf contributesBinding)
    (hsecond : second ∈ d.annotationsOf legacyContributesBinding) {binding : Binding}
    (hasks : Asks (firstTable inputs) d first binding)
    (hagain : Asks (firstTable inputs) d second binding) :
    .ofError (.fileAlreadyExists
        (.generated (Name.inPackage lookupNamespace (lookupName d binding)))) ∈
      Deed.entries [] (firstDeeds options inputs) := by
  obtain ⟨es, hes⟩ := hd.native.exists_lookups hnative
  obtain ⟨es', hes'⟩ := hd.legacy.exists_lookups hlegacy
  obtain ⟨scope, hlookup⟩ := exists_lookup_of_asks hes hfirst hasks
  obtain ⟨scope', hlookup'⟩ := exists_lookup_of_asks hes' hsecond hagain
  have hoffered : offer (.generated (Binding.lookup d scope binding)) ∈
      Processor.contributesBinding.deeds options (firstTable inputs) {} := by
    refine hd.deeds_of_native (isAnnotatedWith_of_usage hfirst) ?_
    rw [hes]
    exact List.mem_map_of_mem hlookup
  have hoffered' : offer (.generated (Binding.lookup d scope' binding)) ∈
      Processor.legacy.deeds options (firstTable inputs) {} := by
    refine hd.deeds_of_legacy (isAnnotatedWith_of_usage hsecond) ?_
    rw [hes']
    exact List.mem_map_of_mem hlookup'
  have hclash : Clashes [] (firstDeeds options inputs)
      (.generated (Name.inPackage lookupNamespace (lookupName d binding))) := by
    have hsplit : Round.recorders = [.contributingAnnotations, .contributesTo,
      .contributesBinding] ++ [.contributesSubcomponent, .legacy] := rfl
    unfold firstDeeds Round.recordDeeds
    rw [recording_eq hon, hsplit, List.flatMap_append, List.append_assoc]
    exact clashes_of_append (List.mem_flatMap.mpr ⟨_, by decide, hoffered⟩)
      (List.mem_append_left _ (List.mem_flatMap.mpr ⟨_, by decide, hoffered'⟩)) rfl
  exact Deed.mem_entries_iff.mpr (Or.inr (Or.inr ⟨_, hclash, rfl⟩))

/-- With no processor off, what asks for a binding is a contribution to wait for. -/
theorem BindingSource.mergeDeeds_eq_nil (hd : BindingSource inputs d)
    (hon : ∀ processor ∈ Processor.all, options.isDisabled processor.id = false)
    (htwice : AsksTwice (firstTable inputs) d) :
    Round.mergeDeeds options (firstTable inputs) {} = [] := by
  have hne :
      d.annotationsOf contributesBinding ++ d.annotationsOf legacyContributesBinding ≠ [] := by
    intro hnil
    unfold AsksTwice at htwice
    rw [hnil] at htwice
    exact htwice List.Pairwise.nil
  obtain ⟨usage, hu⟩ := List.exists_mem_of_ne_nil _ hne
  rcases List.mem_append.mp hu with hu | hu
  · have hbuiltin : contributesBinding ∈ Registry.builtin := by decide
    exact mergeDeeds_first hd.source hd.visible (List.mem_append_left _ hbuiltin)
      (isAnnotatedWith_of_usage hu)
  · refine mergeDeeds_first hd.source hd.visible (List.mem_append_right _ ?_)
      (isAnnotatedWith_of_usage hu)
    unfold Registry.legacy
    rw [hon .legacy (by decide)]
    exact List.mem_cons_self

/-- **A compilation in which a binding is contributed twice fails**, in its first round. It is
reported at the declaration if one annotation asks for the binding twice; otherwise the report is of
a file that exists already, for each binding that both annotations ask for. -/
theorem repeated_bindings_are_reported (hw : (loadedTable inputs).WellFormed)
    (hon : ∀ processor ∈ Processor.all, options.isDisabled processor.id = false)
    (hd : BindingSource inputs d) (htwice : AsksTwice (firstTable inputs) d) (n : Nat) :
    ∃ diagnostics, compile options (n + 1) inputs = .error (.failed diagnostics) ∧
      ((∃ bound, .ofError (.duplicateContribution d.name bound) ∈ diagnostics) ↔
        ¬ Unrepeated (firstTable inputs) contributesBinding d ∨
          ¬ Unrepeated (firstTable inputs) legacyContributesBinding d) ∧
      (Unrepeated (firstTable inputs) contributesBinding d →
        Unrepeated (firstTable inputs) legacyContributesBinding d →
        ∀ first ∈ d.annotationsOf contributesBinding,
          ∀ second ∈ d.annotationsOf legacyContributesBinding, ∀ binding,
            Asks (firstTable inputs) d first binding →
            Asks (firstTable inputs) d second binding →
              .ofError (.fileAlreadyExists
                (.generated (Name.inPackage lookupNamespace (lookupName d binding)))) ∈
                  diagnostics) := by
  have hreported := duplicate_reported_iff hon hd (hd.mergeDeeds_eq_nil hon htwice)
  have hrefused := fun hnative hlegacy first hfirst second hsecond binding hasks hagain =>
    @shared_binding_is_refused options d inputs hon hd hnative hlegacy first second hfirst hsecond
      binding hasks hagain
  have hfails : ∃ entry ∈ Deed.entries [] (firstDeeds options inputs), entry.isError = true := by
    by_cases hone : ¬ Unrepeated (firstTable inputs) contributesBinding d ∨
        ¬ Unrepeated (firstTable inputs) legacyContributesBinding d
    · obtain ⟨bound, hentry⟩ := hreported.mpr hone
      exact ⟨_, hentry, rfl⟩
    · rw [not_or, not_not, not_not] at hone
      obtain ⟨hnative, hlegacy⟩ := hone
      -- neither annotation repeats itself, so the two share a binding
      have hshared : ¬ ∀ first ∈ d.annotationsOf contributesBinding,
          ∀ second ∈ d.annotationsOf legacyContributesBinding, ∀ binding,
            Asks (firstTable inputs) d first binding →
              ¬ Asks (firstTable inputs) d second binding :=
        fun hapart => htwice (List.pairwise_append.mpr ⟨hnative, hlegacy, hapart⟩)
      push Not at hshared
      obtain ⟨first, hfirst, second, hsecond, binding, hasks, hagain⟩ := hshared
      exact ⟨_, hrefused hnative hlegacy first hfirst second hsecond binding hasks hagain, rfl⟩
  obtain ⟨entry, hentry, herror⟩ := hfails
  exact ⟨_, compile_of_error hw hentry herror n, hreported, hrefused⟩

end Session

/-! ## A duplicate that is not reported as one -/

namespace Sample

/-- A clock that is on its way from the legacy annotation to the native one and has both. -/
def bridgedClock : Declaration :=
  { Declaration.topLevel .classType "com.app" "WallClock" with
    supertypes := [⟨"com.app.Clock"⟩]
    annotations :=
      [withScope contributesBinding appScope, withScope legacyContributesBinding appScope] }

def bridged : List Session.Input :=
  [.sources { files := [{ id := ⟨"WallClock.kt"⟩, declarations := [bridgedClock] }] }]

/-- Both usages ask for the same. -/
theorem asks_bridgedClock : ∀ usage ∈ bridgedClock.annotations,
    Binding.Asks (Session.firstTable bridged) bridgedClock usage
      { boundType := ⟨"com.app.Clock"⟩, intoSet := false } := by
  have hof : ∀ usage ∈ bridgedClock.annotations,
      ofUsage (Session.firstTable bridged) bridgedClock usage =
        .ok { boundType := ⟨"com.app.Clock"⟩, intoSet := false } := by
    decide
  exact fun usage hu => ofUsage_eq_ok_iff.mp (hof usage hu)

theorem bindingSource_bridgedClock : Session.BindingSource bridged bridgedClock := by
  have hsound : ∀ annotationType, Sound (Session.firstTable bridged) annotationType bridgedClock :=
    fun annotationType => {
      visibility := rfl
      kind := Or.inl rfl
      scope := ⟨{ marker := appScope, source := .argument contributesBinding }, by decide⟩
      boundTypes := fun usage hu => ⟨_, asks_bridgedClock usage (List.mem_filter.mp hu).1⟩ }
  exact {
    source := by decide
    visible := by decide
    native := hsound _
    legacy := hsound _
    supported := by decide }

theorem bridgedClock_asks_twice : AsksTwice (Session.firstTable bridged) bridgedClock := by
  intro hapart
  have hall : bridgedClock.annotationsOf contributesBinding ++
      bridgedClock.annotationsOf legacyContributesBinding = bridgedClock.annotations := by
    decide
  rw [hall] at hapart
  obtain ⟨hfirst, _⟩ := List.pairwise_cons.mp hapart
  exact hfirst _ (List.mem_singleton_self _) _ (asks_bridgedClock _ List.mem_cons_self)
    (asks_bridgedClock _ (List.mem_cons_of_mem _ (List.mem_singleton_self _)))

end Sample

namespace Session

/-- Each annotation is there once. -/
theorem bridgedClock_unrepeated :
    Unrepeated (firstTable Sample.bridged) contributesBinding Sample.bridgedClock ∧
      Unrepeated (firstTable Sample.bridged) legacyContributesBinding Sample.bridgedClock :=
  ⟨List.pairwise_singleton _ _, List.pairwise_singleton _ _⟩

/-- The clock is refused because of the file for its binding, which exists already. -/
theorem bridged_clock_is_refused : ∃ diagnostics,
    compile {} 4 Sample.bridged = .error (.failed diagnostics) ∧
    (¬ ∃ bound, .ofError (.duplicateContribution Sample.bridgedClock.name bound) ∈ diagnostics) ∧
    .ofError (.fileAlreadyExists
      ⟨"generated/scopeweave.inject.lookup.ComAppWallClockBindsComAppClock"⟩) ∈ diagnostics := by
  obtain ⟨diagnostics, hfails, hreported, hrefused⟩ :=
    @repeated_bindings_are_reported {} Sample.bridgedClock Sample.bridged (by decide) (by decide)
      Sample.bindingSource_bridgedClock Sample.bridgedClock_asks_twice 3
  obtain ⟨hnative, hlegacy⟩ := bridgedClock_unrepeated
  have hid : FileId.generated (Name.inPackage lookupNamespace (lookupName Sample.bridgedClock
      { boundType := ⟨"com.app.Clock"⟩, intoSet := false })) =
        ⟨"generated/scopeweave.inject.lookup.ComAppWallClockBindsComAppClock"⟩ := by
    decide
  refine ⟨diagnostics, hfails, ?_, ?_⟩
  · rw [hreported]
    exact not_or.mpr ⟨not_not.mpr hnative, not_not.mpr hlegacy⟩
  · rw [← hid]
    exact hrefused hnative hlegacy _ (List.mem_singleton_self _) _ (List.mem_singleton_self _) _
      (Sample.asks_bridgedClock _ List.mem_cons_self)
      (Sample.asks_bridgedClock _ (List.mem_cons_of_mem _ (List.mem_singleton_self _)))

/-- **A duplicate can go by another name.** The clock is contributed twice, and no duplicate is
reported at it. -/
theorem bridged_clock_is_no_duplicate :
    ¬ ∀ (inputs : List Input) (d : Declaration) (n : Nat), (loadedTable inputs).WellFormed →
      BindingSource inputs d → AsksTwice (firstTable inputs) d →
      ∃ diagnostics bound, compile {} (n + 1) inputs = .error (.failed diagnostics) ∧
        .ofError (.duplicateContribution d.name bound) ∈ diagnostics := by
  intro hall
  have hd := Sample.bindingSource_bridgedClock
  have hloads : (loadedTable Sample.bridged).WellFormed := by decide
  have hon : ∀ processor ∈ Processor.all, ({} : Options).isDisabled processor.id = false := by
    decide
  obtain ⟨hnative, hlegacy⟩ := bridgedClock_unrepeated
  obtain ⟨diagnostics, bound, hfails, hentry⟩ := hall Sample.bridged Sample.bridgedClock 3
    hloads hd Sample.bridgedClock_asks_twice
  have hrefused := shared_binding_is_refused hon hd hnative hlegacy
    (List.mem_singleton_self _) (List.mem_singleton_self _)
    (Sample.asks_bridgedClock _ List.mem_cons_self)
    (Sample.asks_bridgedClock _ (List.mem_cons_of_mem _ (List.mem_singleton_self _)))
  rw [compile_of_error hloads hrefused rfl] at hfails
  obtain rfl := SessionError.failed.inj (Except.error.inj hfails)
  have hmerge := hd.mergeDeeds_eq_nil hon Sample.bridgedClock_asks_twice
  rcases (duplicate_reported_iff hon hd hmerge).mp ⟨bound, hentry⟩ with hrepeats | hrepeats
  · exact hrepeats hnative
  · exact hrepeats hlegacy

end Session

end ScopeMerge
