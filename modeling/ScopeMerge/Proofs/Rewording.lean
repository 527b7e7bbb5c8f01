import ScopeMerge.Proofs.Bindings

/-!
# Annotations in other words

What a declaration contributes does not depend on which annotations it carries, but on what they
say. If every annotation on it is replaced by one that says the same about its scope, the
declaration has the same scope or the scope is refused for the same reason (`resolve_reworded`).
Which annotation it is that says so is told in two places only: a scope marker may stand for
itself, and an error names the annotations that leave the scope out. This is all that `SaysSame`
keeps of it.

The lookups are then the same as well, if the usages of the contribution annotation ask for the
same bindings. The annotation may even be another one, which shows in two errors alone
(`SameUpTo`).
-/

namespace ScopeMerge

/-- A declaration with every annotation on it replaced. -/
def Declaration.reworded (d : Declaration) (f : AnnotationUsage → AnnotationUsage) : Declaration :=
  { d with annotations := d.annotations.map f }

variable {t : SymbolTable} {d : Declaration} {f : AnnotationUsage → AnnotationUsage}

theorem Declaration.mem_annotationsOf_iff {annotationType : Name} {usage : AnnotationUsage} :
    usage ∈ d.annotationsOf annotationType ↔
      usage ∈ d.annotations ∧ usage.type = annotationType := by
  rw [annotationsOf, List.mem_filter, decide_eq_true_eq]

theorem Declaration.annotationsOf_reworded {annotationType other : Name}
    (h : ∀ usage ∈ d.annotations, (f usage).type = other ↔ usage.type = annotationType) :
    (d.reworded f).annotationsOf other = (d.annotationsOf annotationType).map f := by
  unfold annotationsOf reworded
  rw [List.filter_map]
  refine congrArg (List.map f) (List.filter_congr fun usage hu => ?_)
  exact decide_eq_decide.mpr (h usage hu)

/-! ## The scope -/

namespace Scope

/-- Two usages say the same about the scope of a declaration. -/
structure SaysSame (t : SymbolTable) (usage other : AnnotationUsage) : Prop where
  marker : isMarker t other = isMarker t usage
  takes : takesScope t other = takesScope t usage
  scope : ofArgument? t other = ofArgument? t usage
  type : isMarker t usage = true ∨ ofArgument? t usage = none → other.type = usage.type

theorem SaysSame.refl (t : SymbolTable) (usage : AnnotationUsage) : SaysSame t usage usage :=
  ⟨rfl, rfl, rfl, fun _ => rfl⟩

section

variable (h : ∀ usage ∈ d.annotations, SaysSame t usage (f usage))

include h

theorem classLevel_reworded : classLevel t (d.reworded f) = classLevel t d := by
  unfold classLevel Declaration.reworded
  have hmarkers : d.annotations.filter (isMarker t ∘ f) = d.annotations.filter (isMarker t) :=
    List.filter_congr fun usage hu => (h usage hu).marker
  rw [List.filter_map, List.map_map, hmarkers]
  refine List.map_congr_left fun usage hu => ?_
  obtain ⟨hmem, hmarker⟩ := List.mem_filter.mp hu
  have hsame := h usage hmem
  rw [Function.comp_apply, ofMarker, hsame.scope, hsame.type (Or.inl hmarker)]
  rfl

theorem contributing_reworded : contributing t (d.reworded f) = (contributing t d).map f := by
  unfold contributing Declaration.reworded
  rw [List.filter_map]
  exact congrArg (List.map f) (List.filter_congr fun usage hu => (h usage hu).takes)

omit h in
theorem map_marker_explicit :
    (explicit t d).map (·.marker) = (contributing t d).filterMap (ofArgument? t) := by
  rw [explicit, List.map_filterMap]
  refine List.filterMap_congr fun usage _ => ?_
  rw [Option.map_map]
  exact Option.map_id'

theorem map_marker_explicit_reworded :
    (explicit t (d.reworded f)).map (·.marker) = (explicit t d).map (·.marker) := by
  rw [map_marker_explicit, map_marker_explicit, contributing_reworded h, List.filterMap_map]
  exact List.filterMap_congr fun usage hu => (h usage (mem_of_mem_contributing hu)).scope

theorem omitting_reworded : omitting t (d.reworded f) = omitting t d := by
  unfold omitting
  have homitting : (contributing t d).filter
        ((fun usage => (ofArgument? t usage).isNone) ∘ f) =
      (contributing t d).filter fun usage => (ofArgument? t usage).isNone :=
    List.filter_congr fun usage hu =>
      congrArg Option.isNone (h usage (mem_of_mem_contributing hu)).scope
  rw [contributing_reworded h, List.filter_map, List.map_map, homitting]
  refine congrArg List.eraseDups (List.map_congr_left fun usage hu => ?_)
  obtain ⟨hmem, hnone⟩ := List.mem_filter.mp hu
  exact (h usage (mem_of_mem_contributing hmem)).type
    (Or.inr (Option.isNone_iff_eq_none.mp hnone))

theorem lacking?_reworded : lacking? t (d.reworded f) = lacking? t d := by
  have hfind : (contributing t d).find?
        ((fun usage => (ofArgument? t usage).isNone && !mayOmitScope t usage) ∘ f) =
      (contributing t d).find? fun usage =>
        (ofArgument? t usage).isNone && !mayOmitScope t usage := by
    refine List.find?_congr fun usage hu => ?_
    have hsame := h usage (mem_of_mem_contributing hu)
    rw [Function.comp_apply, hsame.scope]
    -- where a scope is given nothing is lacking, and where none is given the class is the same
    cases hargument : ofArgument? t usage with
    | some marker => rfl
    | none => rw [mayOmitScope, hsame.type (Or.inr hargument), mayOmitScope]
  unfold lacking?
  rw [contributing_reworded h, List.find?_map, Option.map_map, hfind]
  refine Option.map_congr fun usage hfound => ?_
  have hlacking := List.find?_some hfound
  rw [Bool.and_eq_true, Option.isNone_iff_eq_none] at hlacking
  have hmem := mem_of_mem_contributing (List.mem_of_find?_eq_some hfound)
  exact (h usage hmem).type (Or.inr hlacking.1)

/-- **The scope is the same in other words**, and so is the reason to refuse it. -/
theorem resolve_reworded :
    (resolve t (d.reworded f)).map (·.marker) = (resolve t d).map (·.marker) := by
  have hown := classLevel_reworded h
  have hgiven := map_marker_explicit_reworded h
  unfold resolve
  dsimp only
  rw [hown, lacking?_reworded h, omitting_reworded h]
  split
  · rfl
  split
  · rfl
  cases hexplicit : explicit t d with
  | nil =>
      rw [hexplicit, List.map_nil, List.map_eq_nil_iff] at hgiven
      rw [hgiven]
      dsimp only
      unfold ofClassLevel
      rw [hown]
      rfl
  | cons scope rest =>
      rw [hexplicit, List.map_cons, List.map_eq_cons_iff] at hgiven
      obtain ⟨scope', rest', hexplicit', hmarker, hrest⟩ := hgiven
      have hmarkers : markers (scope' :: rest') = markers (scope :: rest) := by
        rw [markers, List.map_cons, hmarker, hrest, markers, List.map_cons]
      rw [hexplicit']
      dsimp only
      rw [hmarkers]
      split
      · rfl
      · unfold ofExplicit
        rw [hown]
        cases classLevel t d with
        | nil => exact congrArg Except.ok hmarker
        | cons own _ =>
            dsimp only
            rw [hmarker]
            rfl

end

end Scope

/-! ## The lookups -/

namespace Contribution

/-- Two outcomes are the same, up to the annotation that a declaration of the wrong kind is told
about. -/
inductive SameUpTo (annotationType other : Name) : Outcome → Outcome → Prop
  | same (outcome : Outcome) : SameUpTo annotationType other outcome outcome
  | notInterface (name : Name) : SameUpTo annotationType other
      (.error (.notInterface name annotationType)) (.error (.notInterface name other))
  | notAClass (name : Name) : SameUpTo annotationType other
      (.error (.notAClass name annotationType)) (.error (.notAClass name other))

theorem SameUpTo.eq {annotationType : Name} {outcome outcome' : Outcome}
    (h : SameUpTo annotationType annotationType outcome outcome') : outcome = outcome' := by
  cases h <;> rfl

variable {annotationType other : Name}

/-- The same scope is recorded the same way. -/
theorem emptyLookup_congr {simple : String} {scope scope' : Scope}
    (h : scope'.marker = scope.marker) :
    emptyLookup simple (d.reworded f) scope' = emptyLookup simple d scope := by
  unfold emptyLookup scopeRecord
  rw [h]
  rfl

/-- Scopes that are the same as far as lookups record them. -/
theorem cases_of_map_marker_eq {r r' : Except MergeError Scope}
    (h : r'.map (·.marker) = r.map (·.marker)) :
    (∃ e, r = .error e ∧ r' = .error e) ∨
      ∃ scope scope', r = .ok scope ∧ r' = .ok scope' ∧ scope'.marker = scope.marker := by
  cases r with
  | error e =>
      cases r' with
      | error e' => exact Or.inl ⟨e, rfl, congrArg Except.error (Except.error.inj h)⟩
      | ok _ => exact nomatch h
  | ok scope =>
      cases r' with
      | error _ => exact nomatch h
      | ok scope' => exact Or.inr ⟨scope, scope', rfl, rfl, Except.ok.inj h⟩

section

variable (h : (Scope.resolve t (d.reworded f)).map (·.marker) =
  (Scope.resolve t d).map (·.marker))

include h

theorem interfaceLookups_reworded :
    SameUpTo annotationType other (interfaceLookups t annotationType d)
      (interfaceLookups t other (d.reworded f)) := by
  have hpublic : requirePublic (d.reworded f) = requirePublic d := rfl
  have hinterface : (d.reworded f).isInterface = d.isInterface := rfl
  unfold interfaceLookups interfaceLookup
  rw [hpublic, hinterface]
  cases requirePublic d with
  | error e => exact .same _
  | ok _ =>
    cases d.isInterface with
    | false => exact .notInterface d.name
    | true =>
      rcases cases_of_map_marker_eq h with ⟨e, hd, hd'⟩ | ⟨scope, scope', hd, hd', hmarker⟩
      · rw [hd, hd']
        exact .same _
      · have hlookup : emptyLookup (d.reworded f).name.flatten (d.reworded f) scope' =
            emptyLookup d.name.flatten d scope :=
          emptyLookup_congr hmarker
        rw [hd, hd']
        dsimp only [bind, Except.bind, pure, Except.pure]
        rw [hlookup]
        exact .same _

theorem bindingLookups_reworded
    (hcollect : Binding.collect t (d.reworded f) [] ((d.reworded f).annotationsOf other) =
      Binding.collect t d [] (d.annotationsOf annotationType)) :
    SameUpTo annotationType other (bindingLookups t annotationType d)
      (bindingLookups t other (d.reworded f)) := by
  have hpublic : requirePublic (d.reworded f) = requirePublic d := rfl
  have hkind : (d.reworded f).kind = d.kind := rfl
  unfold bindingLookups
  rw [hpublic, hkind, hcollect]
  cases requirePublic d with
  | error e => exact .same _
  | ok _ =>
    cases decide (d.kind = .classType) || decide (d.kind = .object) with
    | false => exact .notAClass d.name
    | true =>
      rcases cases_of_map_marker_eq h with ⟨e, hd, hd'⟩ | ⟨scope, scope', hd, hd', hmarker⟩
      · rw [hd, hd']
        exact .same _
      · have hlookup : Binding.lookup (d.reworded f) scope' = Binding.lookup d scope := by
          funext binding
          unfold Binding.lookup
          rw [emptyLookup_congr hmarker]
          rfl
        rw [hd, hd']
        dsimp only [bind, Except.bind, pure, Except.pure]
        rw [hlookup]
        exact .same _

end

/-- Usages that are understood the same in other words ask for the same together. -/
theorem collect_reworded {usages : List AnnotationUsage} {earlier : List Binding}
    (h : ∀ usage ∈ usages, Binding.ofUsage t d (f usage) = Binding.ofUsage t d usage) :
    Binding.collect t (d.reworded f) earlier (usages.map f) =
      Binding.collect t d earlier usages := by
  induction usages generalizing earlier with
  | nil => rfl
  | cons usage rest ih =>
      have hread : Binding.ofUsage t (d.reworded f) (f usage) = Binding.ofUsage t d usage :=
        h usage List.mem_cons_self
      rw [List.map_cons, Binding.collect, Binding.collect, hread]
      refine bind_congr fun binding => bind_congr fun _ => ?_
      rw [ih fun later hlater => h later (List.mem_cons_of_mem _ hlater)]

end Contribution

end ScopeMerge
