import ScopeMerge.Proofs.Arguments
import ScopeMerge.Proofs.Rewording
import ScopeMerge.Proofs.RuntimeScope

/-!
# What a legacy annotation is translated to

A legacy annotation starts with the same parameters as the native one, the *shared* ones, and goes
on with parameters that have no native counterpart. Its usages are read as if they were usages of
the native annotation:

* `lookups_plain`: whatever is written for an unsupported parameter makes no difference to the
  lookups. They are the same once it is gone, and `argument?_withoutUnsupported` says that nothing
  else is gone then;
* `sameUpTo_inNative`: without unsupported parameters the lookups are those for the native
  annotation.

So it comes down to the complaints, one for each unsupported parameter that is set. Which ones are
set is read like any other argument, so it is what the usages show
(`mem_unsupportedParameters_iff`). Where unnamed arguments come first these are the ones that are
written down (`showsSet_iff_sets`). Behind a named argument an unnamed one is counted for another
parameter, and one that is unsupported can go unnoticed.
-/

namespace ScopeMerge

open Vocabulary

namespace Output

theorem foldl_warn (errors : List MergeError) (output : Output) (symbol : Option Name) :
    errors.foldl (fun warned error => warned.warn (error.message ++ "; ignored") symbol) output =
      { output with
        diagnostics := output.diagnostics ++
          errors.map fun error => .warning (error.message ++ "; ignored") symbol } := by
  induction errors generalizing output with
  | nil => simp
  | cons error rest ih =>
      rw [List.foldl_cons, ih, warn, List.map_cons, List.append_assoc]
      rfl

theorem foldl_report (errors : List MergeError) (output : Output) :
    errors.foldl report output =
      { output with diagnostics := output.diagnostics ++ errors.map .ofError } := by
  induction errors generalizing output with
  | nil => simp
  | cons error rest ih =>
      rw [List.foldl_cons, ih, report, List.map_cons, List.append_assoc]
      rfl

end Output

namespace LegacyAnnotation

/-! ## The native annotation -/

/-- The annotation class that a legacy one stands for. -/
def native : LegacyAnnotation → Name
  | contributesTo => Vocabulary.contributesTo
  | contributesBinding => Vocabulary.contributesBinding

/-- The lookups for a declaration with the native annotation. -/
def nativeLookups (t : SymbolTable) :
    LegacyAnnotation → Declaration → Contribution.Outcome
  | contributesTo => Contribution.interfaceLookups t contributesTo.native
  | contributesBinding => Contribution.bindingLookups t contributesBinding.native

/-- A usage of a legacy annotation as one of the native annotation. -/
def retold (legacy : LegacyAnnotation) (usage : AnnotationUsage) : AnnotationUsage :=
  if usage.type = legacy.name then { usage with type := legacy.native } else usage

/-- A declaration with the native annotation in place of the legacy one. -/
def inNative (legacy : LegacyAnnotation) (d : Declaration) : Declaration :=
  d.reworded legacy.retold

/-! ## The unsupported parameters -/

/-- The parameters that both annotations start with. -/
def shared : LegacyAnnotation → List String
  | contributesTo => [scopeParameter]
  | contributesBinding => [scopeParameter, boundTypeParameter]

/-- The arguments but for those for unsupported parameters. These are the ones with such a name, and
the unnamed ones after the first few, which are for the shared parameters. -/
def supported : Nat → List Argument → List Argument
  | _, [] => []
  | unnamed, argument :: rest =>
    match argument.name, unnamed with
    | some name, unnamed =>
      if name ∈ unsupportedLegacyParameters then supported unnamed rest
      else argument :: supported unnamed rest
    | none, 0 => supported 0 rest
    | none, unnamed + 1 => argument :: supported unnamed rest

/-- A usage of a legacy annotation without what is written for unsupported parameters. -/
def withoutUnsupported (legacy : LegacyAnnotation) (usage : AnnotationUsage) : AnnotationUsage :=
  if usage.type = legacy.name then
    { usage with arguments := supported legacy.shared.length usage.arguments }
  else usage

/-- A declaration without what is written for unsupported parameters. -/
def plain (legacy : LegacyAnnotation) (d : Declaration) : Declaration :=
  d.reworded legacy.withoutUnsupported

/-- Nothing is written for an unsupported parameter, by name or by position. -/
structure Common (legacy : LegacyAnnotation) (usage : AnnotationUsage) : Prop where
  named : ∀ argument ∈ usage.arguments, ∀ name ∈ unsupportedLegacyParameters,
    argument.name ≠ some name
  unnamed : usage.positionals.length ≤ legacy.shared.length

/-- A usage sets an unsupported parameter to something that changes what the annotation means. -/
def Sets (t : SymbolTable) (usage : AnnotationUsage) (parameter : String) : Prop :=
  parameter ∈ unsupportedLegacyParameters ∧ ∃ value,
    usage.Assigns (t.parametersOf usage.type) parameter value ∧
      value ≠ .types [] ∧ value ≠ .bool false

/-- The same as a reader sees it who counts the unnamed arguments alone. -/
def ShowsSet (t : SymbolTable) (usage : AnnotationUsage) (parameter : String) : Prop :=
  parameter ∈ unsupportedLegacyParameters ∧ ∃ value,
    usage.Shows (t.parametersOf usage.type) parameter value ∧
      value ≠ .types [] ∧ value ≠ .bool false

variable {t : SymbolTable} {legacy : LegacyAnnotation} {d : Declaration}
  {usage : AnnotationUsage} {arguments : List Argument} {parameter : String} {unnamed : Nat}

theorem find?_supported (h : parameter ∉ unsupportedLegacyParameters) :
    (supported unnamed arguments).find? (·.name = some parameter) =
      arguments.find? (·.name = some parameter) := by
  fun_induction supported unnamed arguments with
  | case1 => rfl
  | case2 argument rest name unnamed hname hunsupported ih =>
      have hne : argument.name ≠ some parameter := by
        rw [hname]
        rintro ⟨⟩
        exact h hunsupported
      rw [List.find?_cons_of_neg (by simpa using hne), ih]
  | case3 argument rest name unnamed hname hsupported ih =>
      rw [List.find?_cons, List.find?_cons, ih]
  | case4 argument rest hname ih => rw [List.find?_cons_of_neg (by simp [hname]), ih]
  | case5 argument rest unnamed hname ih => rw [List.find?_cons, List.find?_cons, ih]

theorem positionals_supported :
    (supported unnamed arguments).filter (·.name.isNone) =
      (arguments.filter (·.name.isNone)).take unnamed := by
  fun_induction supported unnamed arguments with
  | case1 => simp
  | case2 argument rest name unnamed hname hunsupported ih =>
      rw [List.filter_cons_of_neg (by simp [hname]), ih]
  | case3 argument rest name unnamed hname hsupported ih =>
      rw [List.filter_cons_of_neg (by simp [hname]), List.filter_cons_of_neg (by simp [hname]), ih]
  | case4 argument rest hname ih => simpa using ih
  | case5 argument rest unnamed hname ih =>
      rw [List.filter_cons_of_pos (by simp [hname]), List.filter_cons_of_pos (by simp [hname]),
        List.take_succ_cons, ih]

theorem supported_eq_self
    (hnamed : ∀ argument ∈ arguments, ∀ name ∈ unsupportedLegacyParameters,
      argument.name ≠ some name)
    (hunnamed : (arguments.filter (·.name.isNone)).length ≤ unnamed) :
    supported unnamed arguments = arguments := by
  fun_induction supported unnamed arguments with
  | case1 => rfl
  | case2 argument rest name unnamed hname hunsupported ih =>
      exact absurd hname (hnamed argument List.mem_cons_self name hunsupported)
  | case3 argument rest name unnamed hname hsupported ih =>
      rw [List.forall_mem_cons] at hnamed
      rw [List.filter_cons_of_neg (by simp [hname])] at hunnamed
      rw [ih hnamed.2 hunnamed]
  | case4 argument rest hname ih =>
      rw [List.filter_cons_of_pos (by simp [hname])] at hunnamed
      exact absurd hunnamed (Nat.not_succ_le_zero _)
  | case5 argument rest unnamed hname ih =>
      rw [List.forall_mem_cons] at hnamed
      rw [List.filter_cons_of_pos (by simp [hname])] at hunnamed
      rw [ih hnamed.2 (Nat.le_of_succ_le_succ hunnamed)]

theorem name_ne_of_mem_supported {argument : Argument}
    (h : argument ∈ supported unnamed arguments) :
    ∀ name ∈ unsupportedLegacyParameters, argument.name ≠ some name := by
  fun_induction supported unnamed arguments with
  | case1 => exact absurd h List.not_mem_nil
  | case2 first rest name unnamed hname hunsupported ih => exact ih h
  | case3 first rest name unnamed hname hsupported ih =>
      rcases List.mem_cons.mp h with rfl | h
      · rintro other hother heq
        exact hsupported (Option.some.inj (hname.symm.trans heq) ▸ hother)
      · exact ih h
  | case4 first rest hname ih => exact ih h
  | case5 first rest unnamed hname ih =>
      rcases List.mem_cons.mp h with rfl | h
      · rw [hname]
        exact fun _ _ => nofun
      · exact ih h

/-- Nothing is left for an unsupported parameter, and where there is nothing nothing is lost. -/
theorem common_withoutUnsupported (h : usage.type = legacy.name) :
    legacy.Common (legacy.withoutUnsupported usage) := by
  unfold withoutUnsupported
  rw [if_pos h]
  refine ⟨fun argument hargument => name_ne_of_mem_supported hargument, ?_⟩
  rw [AnnotationUsage.positionals, positionals_supported, List.length_map, List.length_take]
  exact Nat.min_le_left _ _

theorem withoutUnsupported_eq_self (h : usage.type = legacy.name → legacy.Common usage) :
    legacy.withoutUnsupported usage = usage := by
  unfold withoutUnsupported
  split
  · next htype =>
    obtain ⟨hnamed, hunnamed⟩ := h htype
    rw [AnnotationUsage.positionals, List.length_map] at hunnamed
    rw [supported_eq_self hnamed hunnamed]
  · rfl

/-! ## The parameters that are read -/

/-- What the class of a legacy annotation declares. -/
def parameters : LegacyAnnotation → List AnnotationParameter
  | contributesTo => [{ name := scopeParameter }, { name := "replaces", hasDefault := true }]
  | contributesBinding =>
    [{ name := scopeParameter }, { name := boundTypeParameter, hasDefault := true }] ++
      unsupportedLegacyParameters.map ({ name := ·, hasDefault := true })

/-- What the class of the native annotation declares. -/
def nativeParameters : LegacyAnnotation → List AnnotationParameter
  | contributesTo => [{ name := scopeParameter, hasDefault := true }]
  | contributesBinding =>
    [{ name := scopeParameter, hasDefault := true },
      { name := boundTypeParameter, hasDefault := true },
      { name := multibindingParameter, hasDefault := true }]

theorem parametersOf_name (hb : t.SeesBuiltins) (legacy : LegacyAnnotation) :
    t.parametersOf legacy.name = legacy.parameters := by
  cases legacy with
  | contributesTo => exact hb.parametersOf_eq (by decide)
  | contributesBinding => exact hb.parametersOf_eq (by decide)

theorem parametersOf_native (hb : t.SeesBuiltins) (legacy : LegacyAnnotation) :
    t.parametersOf legacy.native = legacy.nativeParameters := by
  cases legacy with
  | contributesTo => exact hb.parametersOf_eq (by decide)
  | contributesBinding => exact hb.parametersOf_eq (by decide)

/-- What a usage gives for a parameter, by name or else by the position among the shared ones. -/
def given (legacy : LegacyAnnotation) (usage : AnnotationUsage) (parameter : String) :
    Option AnnotationValue :=
  (usage.named? parameter).or
    ((legacy.shared.findIdx? (· = parameter)).bind usage.positional?)

/-- The unsupported parameters come after the shared ones, so other positions do not depend on
them. -/
theorem findIdx?_parameters (h : parameter ∉ unsupportedLegacyParameters) :
    legacy.parameters.findIdx? (·.name = parameter) = legacy.shared.findIdx? (· = parameter) := by
  have hne : ∀ name ∈ unsupportedLegacyParameters, name ≠ parameter := by
    rintro name hname rfl
    exact h hname
  cases legacy with
  | contributesTo =>
      simp [parameters, shared, List.findIdx?_cons, hne "replaces" (by decide)]
  | contributesBinding =>
      have hnone : (unsupportedLegacyParameters.map
          ({ name := ·, hasDefault := true } : String → AnnotationParameter)).findIdx?
            (·.name = parameter) = none := by
        simpa [List.findIdx?_eq_none_iff] using hne
      rw [parameters, List.findIdx?_append, hnone]
      simp [shared, List.findIdx?_cons]

theorem length_shared_le (h : parameter ∈ unsupportedLegacyParameters) {index : Nat}
    (hindex : legacy.parameters.findIdx? (·.name = parameter) = some index) :
    legacy.shared.length ≤ index := by
  have hall : ∀ parameter ∈ unsupportedLegacyParameters,
      (legacy.parameters.findIdx? (·.name = parameter)).all
        (decide <| legacy.shared.length ≤ ·) = true := by
    cases legacy <;> decide
  have hle := hall parameter h
  rw [hindex, Option.all_some] at hle
  exact of_decide_eq_true hle

theorem argument?_legacy (hb : t.SeesBuiltins) (htype : usage.type = legacy.name)
    (h : parameter ∉ unsupportedLegacyParameters) :
    t.argument? usage parameter = legacy.given usage parameter := by
  rw [SymbolTable.argument?, htype, parametersOf_name hb, findIdx?_parameters h]
  rfl

theorem given_withoutUnsupported (htype : usage.type = legacy.name)
    (h : parameter ∉ unsupportedLegacyParameters) :
    legacy.given (legacy.withoutUnsupported usage) parameter = legacy.given usage parameter := by
  unfold withoutUnsupported
  rw [if_pos htype, given, AnnotationUsage.named?, find?_supported h]
  refine congrArg _ (Option.bind_congr fun index hindex => ?_)
  obtain ⟨hlt, _⟩ := List.findIdx?_eq_some_iff_getElem.mp hindex
  rw [AnnotationUsage.positional?, AnnotationUsage.positionals, positionals_supported,
    List.map_take, List.getElem?_take_of_lt hlt]
  rfl

theorem type_withoutUnsupported (legacy : LegacyAnnotation) (usage : AnnotationUsage) :
    (legacy.withoutUnsupported usage).type = usage.type := by
  unfold withoutUnsupported
  split <;> rfl

/-- **The unsupported parameters are gone, and nothing else is.** -/
theorem argument?_withoutUnsupported (hb : t.SeesBuiltins) (htype : usage.type = legacy.name)
    (parameter : String) :
    t.argument? (legacy.withoutUnsupported usage) parameter =
      if parameter ∈ unsupportedLegacyParameters then none else t.argument? usage parameter := by
  have htype' := (type_withoutUnsupported legacy usage).trans htype
  split
  · next hunsupported =>
    obtain ⟨hnamed, hunnamed⟩ := common_withoutUnsupported htype
    have hnone : (legacy.withoutUnsupported usage).named? parameter = none := by
      rw [AnnotationUsage.named?, Option.map_eq_none_iff, List.find?_eq_none]
      intro argument hargument
      simpa using hnamed argument hargument parameter hunsupported
    rw [SymbolTable.argument?, hnone, Option.none_or, htype', parametersOf_name hb,
      Option.bind_eq_none_iff]
    -- its position is behind the shared parameters, and so many unnamed arguments are not left
    intro index hindex
    exact List.getElem?_eq_none (hunnamed.trans (length_shared_le hunsupported hindex))
  · next hsupported =>
    rw [argument?_legacy hb htype' hsupported, given_withoutUnsupported htype hsupported,
      argument?_legacy hb htype hsupported]

/-! ## The lookups -/

open Scope Contribution

/-- The parameters that the lookups depend on. -/
def relevant : List String :=
  [scopeParameter, boundTypeParameter, multibindingParameter]

theorem notMem_unsupported (h : parameter ∈ relevant) :
    parameter ∉ unsupportedLegacyParameters := by
  revert parameter
  decide

theorem argument?_plain (hb : t.SeesBuiltins) (htype : usage.type = legacy.name)
    (hrelevant : parameter ∈ relevant) :
    t.argument? (legacy.withoutUnsupported usage) parameter = t.argument? usage parameter := by
  rw [argument?_withoutUnsupported hb htype, if_neg (notMem_unsupported hrelevant)]

theorem argument?_native (hb : t.SeesBuiltins) (htype : usage.type = legacy.native)
    (hunnamed : usage.positionals.length ≤ legacy.shared.length)
    (hrelevant : parameter ∈ relevant) :
    t.argument? usage parameter = legacy.given usage parameter := by
  have hposition : (t.parametersOf usage.type).findIdx? (·.name = parameter) =
        legacy.shared.findIdx? (· = parameter) ∨
      legacy.shared.findIdx? (· = parameter) = none ∧
        (t.parametersOf usage.type).findIdx? (·.name = parameter) = some legacy.shared.length := by
    rw [htype, parametersOf_native hb]
    revert parameter
    cases legacy <;> decide
  rw [SymbolTable.argument?, given]
  rcases hposition with hsame | ⟨hnone, hbeyond⟩
  · rw [hsame]
  · -- the native annotation has one parameter more, but there is no argument for it
    rw [hnone, hbeyond]
    exact congrArg _ (List.getElem?_eq_none hunnamed)

theorem argument?_retold (hb : t.SeesBuiltins) (htype : usage.type = legacy.name)
    (hcommon : legacy.Common usage) (hrelevant : parameter ∈ relevant) :
    t.argument? (legacy.retold usage) parameter = t.argument? usage parameter := by
  unfold retold
  rw [if_pos htype, argument?_legacy hb htype (notMem_unsupported hrelevant)]
  exact argument?_native hb rfl hcommon.unnamed hrelevant

theorem ofUsage_congr_of_relevant {other : AnnotationUsage}
    (h : ∀ parameter ∈ relevant, t.argument? other parameter = t.argument? usage parameter) :
    Binding.ofUsage t d other = Binding.ofUsage t d usage := by
  unfold Binding.ofUsage Binding.namedType?
  rw [h boundTypeParameter (by decide), h multibindingParameter (by decide)]

theorem ofArgument?_congr_of_relevant {other : AnnotationUsage}
    (h : ∀ parameter ∈ relevant, t.argument? other parameter = t.argument? usage parameter) :
    ofArgument? t other = ofArgument? t usage := by
  unfold ofArgument?
  rw [h scopeParameter (by decide)]

theorem saysSame_withoutUnsupported (hb : t.SeesBuiltins) (legacy : LegacyAnnotation)
    (usage : AnnotationUsage) : SaysSame t usage (legacy.withoutUnsupported usage) := by
  have htype := type_withoutUnsupported legacy usage
  by_cases hlegacy : usage.type = legacy.name
  · refine ⟨?_, ?_, ?_, fun _ => htype⟩
    · rw [isMarker, htype, isMarker]
    · rw [takesScope, isMarker, htype, takesScope, isMarker]
    · exact ofArgument?_congr_of_relevant fun _ => argument?_plain hb hlegacy
  · rw [withoutUnsupported, if_neg hlegacy]
    exact .refl t usage

/-- **What is written for unsupported parameters makes no difference to the lookups.** -/
theorem lookups_plain (hb : t.SeesBuiltins) (legacy : LegacyAnnotation)
    (d : Declaration) :
    legacy.lookups t (legacy.plain d) = legacy.lookups t d := by
  have hscope := resolve_reworded fun usage (_ : usage ∈ d.annotations) =>
    saysSame_withoutUnsupported hb legacy usage
  cases legacy with
  | contributesTo => exact (interfaceLookups_reworded hscope).eq.symm
  | contributesBinding =>
      refine (bindingLookups_reworded hscope ?_).eq.symm
      rw [Declaration.annotationsOf_reworded fun usage _ => by rw [type_withoutUnsupported]]
      refine collect_reworded fun usage hu => ?_
      have hlegacy := (Declaration.mem_annotationsOf_iff.mp hu).2
      exact ofUsage_congr_of_relevant fun _ => argument?_plain hb hlegacy

/-- The legacy annotation and the native one are no markers, and both take a scope. -/
theorem takesScope_of_name (hb : t.SeesBuiltins) (legacy : LegacyAnnotation) {name : Name}
    (hname : name = legacy.name ∨ name = legacy.native) (arguments : List Argument) :
    isMarker t { type := name, arguments } = false ∧
      takesScope t { type := name, arguments } = true := by
  have hmarker : t.isScopeMarker name = false := by
    refine SymbolTable.builtin_not_scopeMarker hb ?_
    rcases hname with rfl | rfl <;> cases legacy <;> decide
  refine ⟨hmarker, ?_⟩
  rw [takesScope, isMarker, hmarker, SymbolTable.parameter?]
  rcases hname with rfl | rfl
  · rw [parametersOf_name hb]
    cases legacy <;> rfl
  · rw [parametersOf_native hb]
    cases legacy <;> rfl

theorem saysSame_retold (hb : t.SeesBuiltins)
    (h : usage.type = legacy.name → legacy.Common usage ∧ ∃ m, Gives t usage m) :
    SaysSame t usage (legacy.retold usage) := by
  by_cases hlegacy : usage.type = legacy.name
  · obtain ⟨hcommon, m, hgives⟩ := h hlegacy
    have hscope : ofArgument? t (legacy.retold usage) = ofArgument? t usage :=
      ofArgument?_congr_of_relevant fun _ => argument?_retold hb hlegacy hcommon
    obtain ⟨hmarker, htakes⟩ := takesScope_of_name hb legacy (Or.inl hlegacy) usage.arguments
    obtain ⟨hmarker', htakes'⟩ := takesScope_of_name hb legacy (Or.inr rfl) usage.arguments
    refine ⟨?_, ?_, hscope, ?_⟩
    · rw [retold, if_pos hlegacy, hmarker', hmarker]
    · rw [retold, if_pos hlegacy, htakes', htakes]
    · -- it is no marker and gives a scope, so the annotation itself does not matter
      rintro (hmarks | hnone)
      · exact Bool.noConfusion (hmarker.symm.trans hmarks)
      · exact nomatch hnone.symm.trans (ofArgument?_eq_some_iff.mpr hgives)
  · rw [retold, if_neg hlegacy]
    exact .refl t usage

/-- **A legacy annotation means what the native one means.** -/
theorem sameUpTo_inNative (hb : t.SeesBuiltins) (hnative : d.isAnnotatedWith legacy.native = false)
    (h : ∀ usage ∈ d.annotationsOf legacy.name, legacy.Common usage ∧ ∃ m, Gives t usage m) :
    SameUpTo legacy.name legacy.native (legacy.lookups t d)
      (legacy.nativeLookups t (legacy.inNative d)) := by
  have hscope := resolve_reworded fun usage (hu : usage ∈ d.annotations) =>
    saysSame_retold hb fun htype =>
      h usage (Declaration.mem_annotationsOf_iff.mpr ⟨hu, htype⟩)
  cases legacy with
  | contributesTo => exact interfaceLookups_reworded hscope
  | contributesBinding =>
      refine bindingLookups_reworded hscope ?_
      -- all usages of the native annotation come from the legacy one
      have hretold : ∀ usage ∈ d.annotations,
          (contributesBinding.retold usage).type = contributesBinding.native ↔
            usage.type = contributesBinding.name := by
        intro usage hu
        unfold retold
        split
        · next htype => exact iff_of_true rfl htype
        · next htype =>
          exact iff_of_false (Declaration.isAnnotatedWith_eq_false_iff.mp hnative usage hu) htype
      rw [Declaration.annotationsOf_reworded hretold]
      refine collect_reworded fun usage hu => ?_
      have hlegacy := (Declaration.mem_annotationsOf_iff.mp hu).2
      exact ofUsage_congr_of_relevant fun _ => argument?_retold hb hlegacy (h usage hu).1

/-! ## The complaints -/

/-- Every argument of a usage is where it is looked for: the unnamed ones come first, and no
parameter is given twice. -/
structure Orderly (t : SymbolTable) (usage : AnnotationUsage) : Prop where
  unnamedFirst : usage.UnnamedFirst
  once : usage.GivenOnce (t.parametersOf usage.type)

theorem isSet_iff {value : AnnotationValue} :
    isSet value = true ↔ value ≠ .types [] ∧ value ≠ .bool false := by
  cases value <;> simp [isSet]

theorem nodup_unsupportedParameters : (legacy.unsupportedParameters t d).Nodup :=
  nodup_eraseDups _

theorem nodup_parameters (hb : t.SeesBuiltins) (htype : usage.type = legacy.name) :
    ((t.parametersOf usage.type).map (·.name)).Nodup := by
  rw [htype, parametersOf_name hb]
  cases legacy <;> decide

/-- **The parameters complained about are those that the usages show.** -/
theorem mem_unsupportedParameters_iff (hb : t.SeesBuiltins) :
    parameter ∈ legacy.unsupportedParameters t d ↔
      ∃ usage ∈ d.annotationsOf legacy.name, ShowsSet t usage parameter := by
  unfold unsupportedParameters
  rw [List.mem_eraseDups, List.mem_flatMap]
  refine exists_congr fun usage => and_congr_right fun hu => ?_
  have hdistinct := nodup_parameters hb (Declaration.mem_annotationsOf_iff.mp hu).2
  rw [List.mem_filter, Option.any_eq_true]
  simp only [AnnotationUsage.argument?_eq_some_iff_shows hdistinct, isSet_iff, ShowsSet]

/-- An orderly usage shows what it sets. -/
theorem showsSet_iff_sets (hb : t.SeesBuiltins) (htype : usage.type = legacy.name)
    (h : Orderly t usage) : ShowsSet t usage parameter ↔ Sets t usage parameter := by
  have hdistinct := nodup_parameters hb htype
  have hread (value : AnnotationValue) :
      usage.Shows (t.parametersOf usage.type) parameter value ↔
        usage.Assigns (t.parametersOf usage.type) parameter value :=
    (AnnotationUsage.argument?_eq_some_iff_shows hdistinct).symm.trans
      (AnnotationUsage.argument?_eq_some_iff hdistinct h.unnamedFirst h.once)
  simp only [ShowsSet, Sets, hread]

/-- The error for an unsupported parameter. -/
def errorFor (legacy : LegacyAnnotation) (d : Declaration) (parameter : String) : Diagnostic :=
  .ofError (.unsupportedLegacyParameter d.name legacy.name parameter)

/-- The warning for an unsupported parameter that is ignored. -/
def warningFor (legacy : LegacyAnnotation) (d : Declaration) (parameter : String) : Diagnostic :=
  .warning
    ((MergeError.unsupportedLegacyParameter d.name legacy.name parameter).message ++ "; ignored")
    (some d.name)

/-- What is recorded for a declaration: all complaints as warnings and then the lookups, or else
either the complaints or the lookups. -/
theorem recordLegacy_eq (options : Options) (t : SymbolTable) (legacy : LegacyAnnotation)
    (output : Output) (d : Declaration) :
    Round.recordLegacy options t legacy output d =
      let parameters := legacy.unsupportedParameters t d
      if options.ignoreUnsupportedLegacyParameters then
        Output.absorb { output with
          diagnostics := output.diagnostics ++ parameters.map (legacy.warningFor d) }
          (legacy.lookups t d)
      else if parameters = [] then output.absorb (legacy.lookups t d)
      else { output with
        diagnostics := output.diagnostics ++ parameters.map (legacy.errorFor d) } := by
  unfold Round.recordLegacy complaints
  dsimp only
  rw [Output.foldl_warn, Output.foldl_report, List.map_map, List.map_map]
  cases options.ignoreUnsupportedLegacyParameters with
  | true => rfl
  | false =>
      cases legacy.unsupportedParameters t d with
      | nil => rfl
      | cons _ _ => rfl

/-! ## The translation -/

/-- Without what is written for unsupported parameters, a usage still gives the scope it gave. -/
theorem gives_withoutUnsupported_iff (hb : t.SeesBuiltins) (legacy : LegacyAnnotation)
    {usage : AnnotationUsage} {m : Name} :
    Gives t (legacy.withoutUnsupported usage) m ↔ Gives t usage m := by
  rw [← ofArgument?_eq_some_iff, ← ofArgument?_eq_some_iff,
    (saysSame_withoutUnsupported hb legacy usage).scope]

theorem annotationsOf_plain (legacy : LegacyAnnotation) (d : Declaration) (annotationType : Name) :
    (legacy.plain d).annotationsOf annotationType =
      (d.annotationsOf annotationType).map legacy.withoutUnsupported :=
  Declaration.annotationsOf_reworded fun usage _ => by rw [type_withoutUnsupported]

theorem isAnnotatedWith_plain (legacy : LegacyAnnotation) (d : Declaration)
    (annotationType : Name) :
    (legacy.plain d).isAnnotatedWith annotationType = d.isAnnotatedWith annotationType := by
  unfold plain Declaration.reworded Declaration.isAnnotatedWith
  rw [List.any_map]
  refine congrArg d.annotations.any (funext fun usage => ?_)
  rw [Function.comp_apply, type_withoutUnsupported]

theorem plain_eq_self (h : ∀ usage ∈ d.annotationsOf legacy.name, legacy.Common usage) :
    legacy.plain d = d := by
  have hsame : d.annotations.map legacy.withoutUnsupported = d.annotations.map id :=
    List.map_congr_left fun usage hu => withoutUnsupported_eq_self fun htype =>
      h usage (Declaration.mem_annotationsOf_iff.mpr ⟨hu, htype⟩)
  rw [plain, Declaration.reworded, hsame, List.map_id]

/-- **A legacy annotation is translated to what the native one produces.** On a declaration without
usages of the native annotation, on which every usage of the legacy one gives its scope:

* the lookups are those for the native annotation in place of the legacy one, once everything
  written for unsupported parameters is gone, which may be nothing;
* if unsupported parameters are ignored, there is a warning for each that is set, and the lookups
  are recorded as if they were not there;
* if not, there is an error for each that is set, and no lookup is recorded unless there is none.

The parameters that the usages show as set are counted once each, and no others are. They are those
that are set if the arguments are in order. -/
theorem legacy_translates_to_native (ops : List SymbolTable.Operation)
    (legacy : LegacyAnnotation) (d : Declaration)
    (hnative : d.isAnnotatedWith legacy.native = false)
    (hscope : ∀ usage ∈ d.annotationsOf legacy.name, ∃ m, Gives (SymbolTable.run ops) usage m) :
    SameUpTo legacy.name legacy.native (legacy.lookups (SymbolTable.run ops) d)
      (legacy.nativeLookups (SymbolTable.run ops) (legacy.inNative (legacy.plain d))) ∧
    ((∀ usage ∈ d.annotationsOf legacy.name, legacy.Common usage) → legacy.plain d = d) ∧
    ∃ parameters : List String, parameters.Nodup ∧
      (∀ p, p ∈ parameters ↔
        ∃ usage ∈ d.annotationsOf legacy.name, ShowsSet (SymbolTable.run ops) usage p) ∧
      ((∀ usage ∈ d.annotationsOf legacy.name, Orderly (SymbolTable.run ops) usage) →
        ∀ p, p ∈ parameters ↔
          ∃ usage ∈ d.annotationsOf legacy.name, Sets (SymbolTable.run ops) usage p) ∧
      ∀ options output, Round.recordLegacy options (SymbolTable.run ops) legacy output d =
        if options.ignoreUnsupportedLegacyParameters then
          Output.absorb { output with
            diagnostics := output.diagnostics ++ parameters.map (legacy.warningFor d) }
            (legacy.lookups (SymbolTable.run ops) (legacy.plain d))
        else if parameters = [] then
          output.absorb (legacy.lookups (SymbolTable.run ops) (legacy.plain d))
        else { output with
          diagnostics := output.diagnostics ++ parameters.map (legacy.errorFor d) } := by
  have hb := SymbolTable.seesBuiltins_run ops
  have hplain := lookups_plain hb legacy d
  refine ⟨?_, plain_eq_self, _, nodup_unsupportedParameters,
    fun p => mem_unsupportedParameters_iff hb, fun horderly p => ?_, fun options output => ?_⟩
  · rw [← hplain]
    refine sameUpTo_inNative hb ((isAnnotatedWith_plain legacy d _).trans hnative) ?_
    rw [annotationsOf_plain, List.forall_mem_map]
    intro usage hu
    obtain ⟨m, hm⟩ := hscope usage hu
    have htype := (Declaration.mem_annotationsOf_iff.mp hu).2
    exact ⟨common_withoutUnsupported htype, m, (gives_withoutUnsupported_iff hb legacy).mpr hm⟩
  · refine (mem_unsupportedParameters_iff hb).trans (exists_congr fun usage => ?_)
    refine and_congr_right fun hu => ?_
    exact showsSet_iff_sets hb (Declaration.mem_annotationsOf_iff.mp hu).2 (horderly usage hu)
  · rw [hplain]
    exact recordLegacy_eq options _ legacy output d

end LegacyAnnotation

namespace Sample

/-- A clock that is bound by the legacy annotation and replaces another one. -/
def legacyClock : Declaration :=
  { wallClock with
    annotations :=
      [{ type := legacyContributesBinding
         arguments :=
          [{ value := .type appScope },
            { name := some "replaces", value := .types [⟨"com.app.FakeClock"⟩] }] }] }

/-- The same, with the replaced clock in its place behind named arguments. -/
def replacingClock : Declaration :=
  { wallClock with
    annotations :=
      [{ type := legacyContributesBinding
         arguments :=
          [{ name := some scopeParameter, value := .type appScope },
            { name := some boundTypeParameter, value := .type ⟨"com.app.Clock"⟩ },
            { value := .types [⟨"com.app.FakeClock"⟩] }] }] }

end Sample

namespace LegacyAnnotation

open Scope Contribution

/-- The clock is told that it cannot replace another one, and contributes nothing. -/
theorem legacy_clock_is_refused :
    (∀ usage ∈ Sample.legacyClock.annotationsOf contributesBinding.name,
      Orderly (SymbolTable.run []) usage) ∧
    SameUpTo contributesBinding.name contributesBinding.native
      (contributesBinding.lookups (SymbolTable.run []) Sample.legacyClock)
      (.ok [Sample.wallClockLookup "com.app.Clock" false]) ∧
    ∃ parameters : List String, "replaces" ∈ parameters ∧
      Round.recordLegacy {} (SymbolTable.run []) contributesBinding {} Sample.legacyClock =
        { diagnostics := parameters.map (contributesBinding.errorFor Sample.legacyClock) } := by
  have horderly : ∀ usage ∈ Sample.legacyClock.annotationsOf contributesBinding.name,
      Orderly (SymbolTable.run []) usage := by
    intro usage hu
    obtain rfl := List.mem_singleton.mp hu
    constructor
    · unfold AnnotationUsage.UnnamedFirst
      decide
    · unfold AnnotationUsage.GivenOnce
      decide
  have hscope : ∀ usage ∈ Sample.legacyClock.annotationsOf contributesBinding.name,
      ∃ m, Gives (SymbolTable.run []) usage m := by
    intro usage hu
    obtain rfl := List.mem_singleton.mp hu
    exact ⟨Sample.appScope, ofArgument?_eq_some_iff.mp (by decide)⟩
  obtain ⟨hsame, _, parameters, _, _, hmem, hrecord⟩ :=
    legacy_translates_to_native [] contributesBinding Sample.legacyClock (by decide) hscope
  have hnative : contributesBinding.nativeLookups (SymbolTable.run [])
      (contributesBinding.inNative (contributesBinding.plain Sample.legacyClock)) =
        .ok [Sample.wallClockLookup "com.app.Clock" false] := by
    decide
  rw [hnative] at hsame
  have hreplaces : "replaces" ∈ parameters :=
    (hmem horderly _).mpr ⟨_, List.mem_cons_self, by decide, .types [⟨"com.app.FakeClock"⟩],
      ⟨1, _, rfl, rfl, Or.inl rfl⟩, by decide, by decide⟩
  refine ⟨horderly, hsame, parameters, hreplaces, ?_⟩
  rw [hrecord, if_neg Bool.false_ne_true, if_neg (List.ne_nil_of_mem hreplaces)]
  rfl

/-- Behind the named arguments the replaced clock is not noticed, and the binding is recorded
without a word. -/
theorem replaced_clock_goes_unnoticed :
    (∃ usage ∈ Sample.replacingClock.annotationsOf contributesBinding.name,
      Sets SymbolTable.initial usage "replaces") ∧
    Sample.replacingClock.isAnnotatedWith contributesBinding.native = false ∧
    Round.recordLegacy {} SymbolTable.initial contributesBinding {} Sample.replacingClock =
      { files := [.generated (Sample.wallClockLookup "com.app.Clock" false)] } := by
  refine ⟨⟨_, List.mem_cons_self, by decide, .types [⟨"com.app.FakeClock"⟩],
    ⟨2, _, rfl, rfl, Or.inr ⟨rfl, by decide⟩⟩, by decide, by decide⟩, by decide, by decide⟩

end LegacyAnnotation

end ScopeMerge
