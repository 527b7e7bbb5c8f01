import ScopeMerge.Proofs.Loading
import ScopeMerge.Proofs.Scoping

/-!
# The rule that scopes are resolved by

What the scope of a declaration is depends on two things that its annotations say:
the scopes that its markers stand for, and the scopes that its other annotations
give or leave out. `Decides` is the rule, with one case for each way it can end. It
speaks of a set of usages, so it cannot depend on which of them is written first.

The code goes through the list and reports the first thing it finds wrong. Each case
of the rule therefore says what else must not be the case: `decides_resolve` is that
the code ends as the rule has it, and `Decides.sameOutcome` that the rule has no
second way to end.
-/

namespace ScopeMerge

open Vocabulary

namespace Scope

/-- The usages on a declaration, in no order. -/
def usagesOn (d : Declaration) : Set AnnotationUsage :=
  { usage | usage ∈ d.annotations }

@[simp] theorem mem_usagesOn {d : Declaration} {usage : AnnotationUsage} :
    usage ∈ usagesOn d ↔ usage ∈ d.annotations :=
  Iff.rfl

/-! ## What a usage says -/

section

variable (t : SymbolTable) (usages : Set AnnotationUsage) (usage : AnnotationUsage)

/-- The value of a usage at the position at which its class declares the scope. -/
def ByPosition (value : AnnotationValue) : Prop :=
  ∃ found index, t.find? usage.type = some found ∧
    found.parameters.findIdx? (·.name = scopeParameter) = some index ∧
    usage.positional? index = some value

/-- A usage gives a type as its scope: by name, or else by position. -/
def Gives (marker : Name) : Prop :=
  usage.named? scopeParameter = some (.type marker) ∨
    usage.named? scopeParameter = none ∧ ByPosition t usage (.type marker)

/-- The class of a usage is annotated as a scope marker. -/
def Marks : Prop :=
  ∃ found, t.find? usage.type = some found ∧ found.isAnnotatedWith scopeMarker = true

/-- The class of a usage is no scope marker, and it declares a parameter for the scope. -/
def Takes (parameter : AnnotationParameter) : Prop :=
  ¬ Marks t usage ∧ ∃ found, t.find? usage.type = some found ∧
    found.parameters.find? (·.name = scopeParameter) = some parameter

/-- A marker among some usages stands for a scope: the one it gives, or itself. -/
def MarkerOn (marker : Name) : Prop :=
  usage ∈ usages ∧ Marks t usage ∧
    (Gives t usage marker ∨ (∀ m, ¬ Gives t usage m) ∧ marker = usage.type)

/-- One of some usages that is no marker gives a scope as an argument. -/
def ArgumentOn (marker : Name) : Prop :=
  usage ∈ usages ∧ (∃ parameter, Takes t usage parameter) ∧ Gives t usage marker

/-- One of some usages that could give a scope leaves it out. -/
def LeftOut (parameter : AnnotationParameter) : Prop :=
  usage ∈ usages ∧ Takes t usage parameter ∧ ∀ m, ¬ Gives t usage m

end

/-! ## The rule -/

section

variable (t : SymbolTable) (usages : Set AnnotationUsage) (name : Name)

/-- Some marker stands for a scope. -/
def StatedByMarker (marker : Name) : Prop :=
  ∃ usage, MarkerOn t usages usage marker

/-- Some usage gives a scope as an argument. -/
def StatedByArgument (marker : Name) : Prop :=
  ∃ usage, ArgumentOn t usages usage marker

/-- Two different names are stated. -/
def Disputed (stated : Name → Prop) : Prop :=
  ∃ m m', stated m ∧ stated m' ∧ m ≠ m'

/-- A list of what is stated, each name once. -/
def Lists (names : List Name) (stated : Name → Prop) : Prop :=
  names.Nodup ∧ ∀ n, n ∈ names ↔ stated n

/-- The markers agree, and no scope is left out that has to be given. -/
def Admissible : Prop :=
  ¬ Disputed (StatedByMarker t usages) ∧
    ∀ usage parameter, LeftOut t usages usage parameter → parameter.hasDefault = true

/-- A scope is given by all usages that could give one. -/
def AllGive (marker : Name) : Prop :=
  StatedByArgument t usages marker ∧ (∀ m, StatedByArgument t usages m → m = marker) ∧
    ∀ usage parameter, ¬ LeftOut t usages usage parameter

/-- How the scope of the declaration with a name and some usages on it is decided. -/
inductive Decides : Except MergeError Scope → Prop
  /-- Two markers disagree. -/
  | markersDiffer {scopes : List Name} (h : Disputed (StatedByMarker t usages))
      (hscopes : Lists scopes (StatedByMarker t usages)) :
      Decides (.error (.conflictingScopes name scopes []))
  /-- A scope is left out that has to be given. -/
  | required {usage : AnnotationUsage} {parameter : AnnotationParameter}
      (h : ¬ Disputed (StatedByMarker t usages)) (hleftOut : LeftOut t usages usage parameter)
      (hrequired : parameter.hasDefault = false) :
      Decides (.error (.noScopeArgument name usage.type))
  /-- No scope is given, so the markers decide. -/
  | byMarker {usage : AnnotationUsage} {marker : Name} (h : Admissible t usages)
      (hgiven : ∀ m, ¬ StatedByArgument t usages m) (hmarker : MarkerOn t usages usage marker) :
      Decides (.ok { marker, source := .marker usage.type })
  /-- No scope is given, and there is no marker. -/
  | missing (h : Admissible t usages) (hgiven : ∀ m, ¬ StatedByArgument t usages m)
      (hmarker : ∀ m, ¬ StatedByMarker t usages m) :
      Decides (.error (.missingScope name))
  /-- A scope is given, and another one as well, or it is left out elsewhere. -/
  | argumentsDiffer {scopes omitted : List Name} (h : Admissible t usages)
      (hgiven : ∃ m, StatedByArgument t usages m)
      (hconflict : (∃ usage parameter, LeftOut t usages usage parameter) ∨
        Disputed (StatedByArgument t usages))
      (hscopes : Lists scopes fun m => StatedByArgument t usages m ∨ StatedByMarker t usages m)
      (homitted : Lists omitted fun n =>
        ∃ usage parameter, LeftOut t usages usage parameter ∧ usage.type = n) :
      Decides (.error (.conflictingScopes name scopes omitted))
  /-- All usages give the same scope, and there is no marker. -/
  | byArgument {usage : AnnotationUsage} {marker : Name} (h : Admissible t usages)
      (hgiven : AllGive t usages marker) (husage : ArgumentOn t usages usage marker)
      (hmarker : ∀ m, ¬ StatedByMarker t usages m) :
      Decides (.ok { marker, source := .argument usage.type })
  /-- The markers say again what all usages give. -/
  | redundant {marker : Name} (h : Admissible t usages) (hgiven : AllGive t usages marker)
      (hmarker : StatedByMarker t usages marker) :
      Decides (.error (.redundantExplicitScope name marker))
  /-- The markers say something else than all usages give. -/
  | mismatch {marker own : Name} (h : Admissible t usages) (hgiven : AllGive t usages marker)
      (hmarker : StatedByMarker t usages own) (hne : own ≠ marker) :
      Decides (.error (.scopeMismatch name marker own))

end

/-- Two outcomes that name the same scope, stated in the same of the two ways, or the same kind of
error. -/
def SameOutcome : Except MergeError Scope → Except MergeError Scope → Prop
  | .ok scope, .ok other => scope.marker = other.marker ∧ scope.isClassLevel = other.isClassLevel
  | .error error, .error other => error.ctorIdx = other.ctorIdx
  | _, _ => False

variable {t : SymbolTable} {d : Declaration} {usage : AnnotationUsage}

/-! ## What the code reads is what a usage says -/

theorem isMarker_iff : isMarker t usage = true ↔ Marks t usage :=
  Option.any_eq_true _ _

theorem parameter?_eq_some_iff {parameter : AnnotationParameter} :
    t.parameter? usage.type scopeParameter = some parameter ↔
      ∃ found, t.find? usage.type = some found ∧
        found.parameters.find? (·.name = scopeParameter) = some parameter := by
  unfold SymbolTable.parameter? SymbolTable.parametersOf
  cases t.find? usage.type <;> simp

theorem takesScope_iff : takesScope t usage = true ↔ ∃ parameter, Takes t usage parameter := by
  rw [takesScope, Bool.and_eq_true, Bool.not_eq_true', Bool.eq_false_iff, ne_eq, isMarker_iff,
    Option.isSome_iff_exists]
  simp only [parameter?_eq_some_iff, Takes, exists_and_left]

theorem byPosition_iff {value : AnnotationValue} : ByPosition t usage value ↔
    ((t.parametersOf usage.type).findIdx? (·.name = scopeParameter)).bind usage.positional? =
      some value := by
  unfold ByPosition SymbolTable.parametersOf
  cases t.find? usage.type <;> simp [Option.bind_eq_some_iff]

theorem ofArgument?_eq_some_iff {marker : Name} :
    ofArgument? t usage = some marker ↔ Gives t usage marker := by
  have htype : ∀ value : AnnotationValue, value.asType? = some marker ↔ value = .type marker := by
    rintro ⟨⟩ <;> simp [AnnotationValue.asType?]
  simp only [ofArgument?, Option.bind_eq_some_iff, htype, exists_eq_right, SymbolTable.argument?,
    Option.or_eq_some_iff, Gives, byPosition_iff]

theorem ofArgument?_eq_none_iff : ofArgument? t usage = none ↔ ∀ m, ¬ Gives t usage m := by
  simp only [Option.eq_none_iff_forall_ne_some, ne_eq, ofArgument?_eq_some_iff]

theorem mayOmitScope_eq {parameter : AnnotationParameter} (h : Takes t usage parameter) :
    mayOmitScope t usage = parameter.hasDefault := by
  rw [mayOmitScope, parameter?_eq_some_iff.mpr h.2, Option.any_some]

theorem ofMarker_marker_eq_iff {marker : Name} : (ofMarker t usage).marker = marker ↔
    Gives t usage marker ∨ (∀ m, ¬ Gives t usage m) ∧ marker = usage.type := by
  rw [← ofArgument?_eq_none_iff, ← ofArgument?_eq_some_iff]
  unfold ofMarker
  cases ofArgument? t usage <;> simp [eq_comm]

theorem mem_classLevel_iff {scope : Scope} : scope ∈ classLevel t d ↔
    ∃ usage, MarkerOn t (usagesOn d) usage scope.marker ∧ scope.source = .marker usage.type := by
  simp only [classLevel, List.mem_map, List.mem_filter, isMarker_iff, MarkerOn,
    ← ofMarker_marker_eq_iff, and_assoc]
  refine exists_congr fun usage => and_congr_right fun _ => and_congr_right fun _ => ⟨?_, ?_⟩
  · rintro rfl
    exact ⟨rfl, rfl⟩
  · rintro ⟨hmarker, hsource⟩
    cases scope
    exact congrArg₂ Scope.mk hmarker hsource.symm

theorem mem_contributing_iff : usage ∈ contributing t d ↔
    usage ∈ d.annotations ∧ ∃ parameter, Takes t usage parameter := by
  rw [contributing, List.mem_filter, takesScope_iff]

theorem mem_explicit_iff {scope : Scope} : scope ∈ explicit t d ↔
    ∃ usage, ArgumentOn t (usagesOn d) usage scope.marker ∧
      scope.source = .argument usage.type := by
  simp only [explicit, List.mem_filterMap, mem_contributing_iff, Option.map_eq_some_iff,
    ofArgument?_eq_some_iff, ArgumentOn, and_assoc]
  refine exists_congr fun usage => and_congr_right fun _ => and_congr_right fun _ => ⟨?_, ?_⟩
  · rintro ⟨marker, hgives, rfl⟩
    exact ⟨hgives, rfl⟩
  · rintro ⟨hgives, hsource⟩
    exact ⟨scope.marker, hgives, by cases scope; exact congrArg _ hsource.symm⟩

theorem leftOut_iff : (∃ parameter, LeftOut t (usagesOn d) usage parameter) ↔
    usage ∈ contributing t d ∧ ofArgument? t usage = none := by
  rw [mem_contributing_iff, ofArgument?_eq_none_iff]
  simp only [LeftOut, mem_usagesOn, exists_and_left, exists_and_right, and_assoc]

theorem mem_omitting_iff {n : Name} : n ∈ omitting t d ↔
    ∃ usage parameter, LeftOut t (usagesOn d) usage parameter ∧ usage.type = n := by
  simp only [omitting, List.mem_eraseDups, List.mem_map, List.mem_filter, Option.isNone_iff_eq_none,
    exists_and_right, leftOut_iff]

theorem omitting_eq_nil_iff :
    omitting t d = [] ↔ ∀ usage parameter, ¬ LeftOut t (usagesOn d) usage parameter := by
  simp only [List.eq_nil_iff_forall_not_mem, mem_omitting_iff]
  grind

theorem lacks_iff : usage ∈ contributing t d ∧
      ((ofArgument? t usage).isNone && !mayOmitScope t usage) = true ↔
    ∃ parameter, LeftOut t (usagesOn d) usage parameter ∧ parameter.hasDefault = false := by
  rw [Bool.and_eq_true, ← and_assoc, Option.isNone_iff_eq_none, ← leftOut_iff, Bool.not_eq_true']
  refine ⟨?_, ?_⟩
  · rintro ⟨⟨parameter, hleftOut⟩, hmay⟩
    exact ⟨parameter, hleftOut, (mayOmitScope_eq hleftOut.2.1).symm.trans hmay⟩
  · rintro ⟨parameter, hleftOut, hrequired⟩
    exact ⟨⟨parameter, hleftOut⟩, (mayOmitScope_eq hleftOut.2.1).trans hrequired⟩

/-- Where none lacks a scope, all that leave it out are free to. -/
theorem hasDefault_of_lacking?_eq_none (h : lacking? t d = none) {parameter : AnnotationParameter}
    (hleftOut : LeftOut t (usagesOn d) usage parameter) : parameter.hasDefault = true := by
  rw [lacking?, Option.map_eq_none_iff, List.find?_eq_none] at h
  by_contra hrequired
  obtain ⟨hmem, hlacks⟩ :=
    lacks_iff.mpr ⟨parameter, hleftOut, Bool.eq_false_of_not_eq_true hrequired⟩
  exact h usage hmem hlacks

theorem exists_of_lacking? {annotationType : Name} (h : lacking? t d = some annotationType) :
    ∃ usage parameter, LeftOut t (usagesOn d) usage parameter ∧ parameter.hasDefault = false ∧
      usage.type = annotationType := by
  obtain ⟨usage, hfound, rfl⟩ := Option.map_eq_some_iff.mp h
  have hlacks := List.find?_some hfound
  obtain ⟨parameter, hleftOut, hrequired⟩ :=
    lacks_iff.mp ⟨List.mem_of_find?_eq_some hfound, hlacks⟩
  exact ⟨usage, parameter, hleftOut, hrequired, rfl⟩

/-! ## What is listed in a conflict -/

/-- The merges among the scopes that usages state, in either of the two ways. -/
theorem mem_map_marker_iff {scopes : List Scope} {stated : AnnotationUsage → Name → Prop}
    {source : Name → ScopeSource} (h : ∀ scope, scope ∈ scopes ↔
      ∃ usage, stated usage scope.marker ∧ scope.source = source usage.type) {n : Name} :
    n ∈ scopes.map (·.marker) ↔ ∃ usage, stated usage n := by
  simp only [List.mem_map, h]
  refine ⟨?_, ?_⟩
  · rintro ⟨scope, ⟨usage, hstated, _⟩, rfl⟩
    exact ⟨usage, hstated⟩
  · rintro ⟨usage, hstated⟩
    exact ⟨⟨n, source usage.type⟩, ⟨usage, hstated, rfl⟩, rfl⟩

theorem mem_classLevel_markers_iff {n : Name} :
    n ∈ (classLevel t d).map (·.marker) ↔ StatedByMarker t (usagesOn d) n :=
  mem_map_marker_iff fun _ => mem_classLevel_iff

theorem mem_explicit_markers_iff {n : Name} :
    n ∈ (explicit t d).map (·.marker) ↔ StatedByArgument t (usagesOn d) n :=
  mem_map_marker_iff fun _ => mem_explicit_iff

theorem nodup_eraseDups {α : Type} [DecidableEq α] (xs : List α) : xs.eraseDups.Nodup := by
  match xs with
  | [] => exact List.nodup_nil
  | x :: rest =>
      rw [List.eraseDups_cons]
      refine List.nodup_cons.mpr ⟨fun hmem => ?_, nodup_eraseDups _⟩
      simpa using (List.mem_filter.mp (List.mem_eraseDups.mp hmem)).2
termination_by xs.length
decreasing_by exact Nat.lt_succ_of_le (List.length_filter_le _ _)

section

variable {names : List Name} {stated : Name → Prop}

theorem lists_eraseDups (h : ∀ n, n ∈ names ↔ stated n) : Lists names.eraseDups stated :=
  ⟨nodup_eraseDups names, fun n => List.mem_eraseDups.trans (h n)⟩

theorem length_eraseDups_iff_disputed (h : ∀ n, n ∈ names ↔ stated n) :
    names.eraseDups.length > 1 ↔ Disputed stated := by
  rw [length_eraseDups_gt_one_iff]
  simp only [h, Disputed, exists_and_left]

theorem not_stated_of_eq_nil {scopes : List Scope}
    (h : ∀ n, n ∈ scopes.map (·.marker) ↔ stated n) (hnil : scopes = []) (n : Name) :
    ¬ stated n := by
  rw [← h, hnil]
  exact List.not_mem_nil

end

/-- The list of all scopes that are in conflict: what is given, and then what the markers say. -/
theorem lists_conflicting :
    Lists (markers (explicit t d) ++ markers (classLevel t d)).eraseDups fun m =>
      StatedByArgument t (usagesOn d) m ∨ StatedByMarker t (usagesOn d) m := by
  refine lists_eraseDups fun n => ?_
  rw [List.mem_append, markers, markers, List.mem_eraseDups, List.mem_eraseDups,
    mem_explicit_markers_iff, mem_classLevel_markers_iff]

theorem lists_omitting : Lists (omitting t d) fun n =>
    ∃ usage parameter, LeftOut t (usagesOn d) usage parameter ∧ usage.type = n :=
  ⟨nodup_eraseDups _, fun _ => mem_omitting_iff⟩

/-! ## The code follows the rule -/

variable {scope : Scope}

/-- Without a scope that is given, the first marker decides. -/
theorem decides_ofClassLevel (h : Admissible t (usagesOn d))
    (hgiven : ∀ m, ¬ StatedByArgument t (usagesOn d) m) :
    Decides t (usagesOn d) d.name (ofClassLevel t d) := by
  unfold ofClassLevel
  split
  · next hnil =>
    exact .missing h hgiven (not_stated_of_eq_nil (fun _ => mem_classLevel_markers_iff) hnil)
  · next scope rest hcons =>
    obtain ⟨usage, hmarker, hsource⟩ :=
      mem_classLevel_iff.mp (hcons ▸ List.mem_cons_self : scope ∈ classLevel t d)
    obtain ⟨marker, source⟩ := scope
    obtain rfl : source = _ := hsource
    exact .byMarker h hgiven hmarker

/-- With a scope that all give, what is left is to compare it with the first marker. -/
theorem decides_ofExplicit (h : Admissible t (usagesOn d)) (hmem : scope ∈ explicit t d)
    (hgiven : AllGive t (usagesOn d) scope.marker) :
    Decides t (usagesOn d) d.name (ofExplicit t d scope) := by
  unfold ofExplicit
  split
  · next hnil =>
    obtain ⟨usage, hargument, hsource⟩ := mem_explicit_iff.mp hmem
    obtain ⟨marker, source⟩ := scope
    obtain rfl : source = _ := hsource
    exact .byArgument h hgiven hargument
      (not_stated_of_eq_nil (fun _ => mem_classLevel_markers_iff) hnil)
  · next own rest hcons =>
    have hown : StatedByMarker t (usagesOn d) own.marker :=
      mem_classLevel_markers_iff.mp (hcons ▸ List.mem_cons_self)
    split
    · next heq => exact .redundant h hgiven (heq ▸ hown)
    · next hne => exact .mismatch h hgiven hown hne

/-- **The scope of a declaration is decided by the rule.** -/
theorem decides_resolve (t : SymbolTable) (d : Declaration) :
    Decides t (usagesOn d) d.name (resolve t d) := by
  unfold resolve
  have hown := length_eraseDups_iff_disputed fun _ => mem_classLevel_markers_iff (t := t) (d := d)
  have hexplicit :=
    length_eraseDups_iff_disputed fun _ => mem_explicit_markers_iff (t := t) (d := d)
  dsimp only
  split
  · next hlong =>
    exact .markersDiffer (hown.mp hlong) (lists_eraseDups fun n => mem_classLevel_markers_iff)
  next hshort =>
  have hagree := mt hown.mpr hshort
  split
  · next annotationType hlacking =>
    obtain ⟨usage, parameter, hleftOut, hrequired, rfl⟩ := exists_of_lacking? hlacking
    exact .required hagree hleftOut hrequired
  next hlacking =>
  have hadmissible : Admissible t (usagesOn d) :=
    ⟨hagree, fun usage parameter => hasDefault_of_lacking?_eq_none hlacking⟩
  split
  · next hnil =>
    exact decides_ofClassLevel hadmissible
      (not_stated_of_eq_nil (fun _ => mem_explicit_markers_iff) hnil)
  next scope rest hcons =>
  rw [← hcons]
  -- the markers agree, and no scope that is required is left out: now compare what is given
  have hmem : scope ∈ explicit t d := hcons ▸ List.mem_cons_self
  have hstated : StatedByArgument t (usagesOn d) scope.marker :=
    mem_explicit_markers_iff.mp (List.mem_map_of_mem hmem)
  split
  · next hconflict =>
    refine .argumentsDiffer hadmissible ⟨_, hstated⟩ ?_ lists_conflicting lists_omitting
    refine hconflict.imp (fun hne => ?_) hexplicit.mp
    obtain ⟨n, hn⟩ := List.exists_mem_of_ne_nil _ hne
    obtain ⟨usage, parameter, hleftOut, _⟩ := mem_omitting_iff.mp hn
    exact ⟨usage, parameter, hleftOut⟩
  · next hconflict =>
    obtain ⟨homitted, hgiven⟩ := not_or.mp hconflict
    refine decides_ofExplicit hadmissible hmem ⟨hstated, fun m hm => ?_, ?_⟩
    · by_contra hne
      exact hgiven (hexplicit.mpr ⟨m, scope.marker, hm, hstated, hne⟩)
    · exact omitting_eq_nil_iff.mp (not_not.mp homitted)

/-! ## The rule says one thing -/

section

variable {usages : Set AnnotationUsage}

theorem MarkerOn.stated {m : Name} (h : MarkerOn t usages usage m) : StatedByMarker t usages m :=
  ⟨usage, h⟩

theorem Admissible.marker_unique {m m' : Name} (h : Admissible t usages)
    (hm : StatedByMarker t usages m) (hm' : StatedByMarker t usages m') : m = m' :=
  by_contra fun hne => h.1 ⟨m, m', hm, hm', hne⟩

/-- **The rule leaves no choice**: it decides on one scope or on one kind of error. -/
theorem Decides.sameOutcome {name : Name} {r r' : Except MergeError Scope}
    (h : Decides t usages name r) (h' : Decides t usages name r') : SameOutcome r r' := by
  -- any two cases exclude each other; of one case and itself only the two that end with a scope
  -- leave something to show
  cases h <;> cases h'
  case byMarker.byMarker h _ hmarker _ _ _ _ hmarker' =>
    exact ⟨h.marker_unique hmarker.stated hmarker'.stated, rfl⟩
  case byArgument.byArgument hgiven _ _ _ _ _ hgiven' _ _ =>
    exact ⟨hgiven'.2.1 _ hgiven.1, rfl⟩
  all_goals first
    | exact rfl
    | grind [Disputed, Admissible, AllGive, → MarkerOn.stated]

end

/-- **Scopes are resolved by the rule, and the order of the annotations does not matter.** -/
theorem resolve_follows_rule (t : SymbolTable) (d : Declaration) :
    Decides t (usagesOn d) d.name (resolve t d) ∧
      (∀ r, Decides t (usagesOn d) d.name r → SameOutcome r (resolve t d)) ∧
      ∀ annotations : List AnnotationUsage, annotations.Perm d.annotations →
        SameOutcome (resolve t { d with annotations }) (resolve t d) := by
  refine ⟨decides_resolve t d, fun r hr => hr.sameOutcome (decides_resolve t d), ?_⟩
  intro annotations hp
  have husages : usagesOn { d with annotations } = usagesOn d := Set.ext fun _ => hp.mem_iff
  have hother := decides_resolve t { d with annotations }
  rw [husages] at hother
  exact hother.sameOutcome (decides_resolve t d)

end Scope

namespace Sample

/-- A binding that gives its scope by position, on a declaration that leaves it out elsewhere. -/
def undecided : Declaration :=
  { Declaration.topLevel .classType "com.lib" "Console" with
    annotations :=
      [ { type := contributesTo },
        { type := contributesBinding, arguments := [{ value := .type appScope }] } ] }

/-- A scope that is given once and left out once is a conflict, in either order. -/
theorem conflict_either_way :
    Scope.resolve .initial undecided =
        .error (.conflictingScopes undecided.name [appScope] [contributesTo]) ∧
      Scope.SameOutcome
        (Scope.resolve .initial
          { undecided with annotations := undecided.annotations.reverse })
        (Scope.resolve .initial undecided) :=
  ⟨by decide, (Scope.resolve_follows_rule .initial undecided).2.2 _ (List.reverse_perm _)⟩

end Sample

end ScopeMerge
