import ScopeMerge.Proofs.RuntimeScope
import ScopeMerge.Proofs.Arguments

/-!
# The ways to write a merge request

The annotation that requests a merge says which scope to merge and what to leave out. Both can be
written under their names or without them, and the scope can be stated by a marker instead. Two
readers look at the same arguments. The one for scopes goes by name and position alone. The one
for exclusions also accepts a list of types that is the only argument without a name, wherever it
stands: in the place of the scope, if the scope comes from a marker, or next to a named scope.

`CallStyle` lists the ways to write both down, and `ofArgument?_of_written` and
`exclusionList?_of_written` say what each of the readers makes of them. They never get in each
other's way: a list of types is no scope, and the scope is not looked at for exclusions because
something is found before.
-/

namespace ScopeMerge

open Vocabulary

/-- The distinct names of a list are the names of the list. -/
theorem Name.mem_sortedSet {names : List Name} {name : Name} :
    name ∈ sortedSet names ↔ name ∈ names := by
  rw [sortedSet, List.mem_mergeSort, List.mem_eraseDups]

namespace MergeRequest

open Scope

/-- The ways to write a merge annotation for a scope `S` and exclusions `E`. Where two arguments
are told apart by a name, they can stand in either order. -/
inductive CallStyle where
  /-- `(scope = S, exclude = E)`. -/
  | named (excludeFirst : Bool)
  /-- `(S, E)`. -/
  | positional
  /-- `(S, exclude = E)`. -/
  | namedExclude (excludeFirst : Bool)
  /-- `(scope = S, E)`. -/
  | namedScope (excludeFirst : Bool)
  /-- `(exclude = E)`, with a scope marker next to it. -/
  | onlyNamed
  /-- `(E)`, with a scope marker next to it. -/
  | onlyPositional
deriving DecidableEq

namespace CallStyle

/-- Two arguments in one order or the other. -/
def inOrder (swapped : Bool) (first second : Argument) : List Argument :=
  if swapped then [second, first] else [first, second]

/-- What is written between the parentheses. -/
def arguments (S : Name) (E : List Name) : CallStyle → List Argument
  | named excludeFirst =>
    inOrder excludeFirst { name := some scopeParameter, value := .type S }
      { name := some excludeParameter, value := .types E }
  | positional => [{ value := .type S }, { value := .types E }]
  | namedExclude excludeFirst =>
    inOrder excludeFirst { value := .type S } { name := some excludeParameter, value := .types E }
  | namedScope excludeFirst =>
    inOrder excludeFirst { name := some scopeParameter, value := .type S } { value := .types E }
  | onlyNamed => [{ name := some excludeParameter, value := .types E }]
  | onlyPositional => [{ value := .types E }]

/-- Whether the scope is left to a marker. -/
def usesMarker : CallStyle → Bool
  | onlyNamed => true
  | onlyPositional => true
  | _ => false

end CallStyle

/-- A declaration asks for a merge in one of the ways, and nothing else on it gives a scope. Markers
state the scope exactly if the annotation leaves it to them. -/
structure Written (t : SymbolTable) (style : CallStyle) (S : Name) (E : List Name)
    (d : Declaration) : Prop where
  usage : { type := mergeComponent, arguments := style.arguments S E } ∈ d.annotations
  sole : ∀ usage ∈ d.annotations, (∃ parameter, Takes t usage parameter) →
    usage = { type := mergeComponent, arguments := style.arguments S E }
  markers : ∀ m, StatedByMarker t (usagesOn d) m ↔ style.usesMarker = true ∧ m = S

variable {t : SymbolTable} {style : CallStyle} {S : Name} {E : List Name} {d : Declaration}

/-! ## What the readers make of it -/

theorem parametersOf_mergeComponent (hb : t.SeesBuiltins) :
    t.parametersOf mergeComponent =
      [{ name := scopeParameter, hasDefault := true },
        { name := excludeParameter, hasDefault := true }] :=
  hb.parametersOf_eq (by decide)

/-- The reader for scopes finds the scope and never the exclusions. -/
theorem ofArgument?_of_written (hb : t.SeesBuiltins) :
    ofArgument? t { type := mergeComponent, arguments := style.arguments S E } =
      if style.usesMarker then none else some S := by
  unfold ofArgument? SymbolTable.argument?
  rw [parametersOf_mergeComponent hb]
  cases style with
  | named excludeFirst => cases excludeFirst <;> rfl
  | positional => rfl
  | namedExclude excludeFirst => cases excludeFirst <;> rfl
  | namedScope excludeFirst => cases excludeFirst <;> rfl
  | onlyNamed => rfl
  | onlyPositional => rfl

/-- The reader for exclusions finds the exclusions and never the scope. -/
theorem exclusionList?_of_written (hb : t.SeesBuiltins) :
    exclusionList? t { type := mergeComponent, arguments := style.arguments S E } =
      some (.types E) := by
  unfold exclusionList? SymbolTable.argument?
  rw [parametersOf_mergeComponent hb]
  cases style with
  | named excludeFirst => cases excludeFirst <;> rfl
  | positional => rfl
  | namedExclude excludeFirst => cases excludeFirst <;> rfl
  | namedScope excludeFirst => cases excludeFirst <;> rfl
  | onlyNamed => rfl
  | onlyPositional => rfl

/-- The annotation is no marker, and its scope may be left out. -/
theorem takes_mergeComponent_iff (hb : t.SeesBuiltins) {arguments : List Argument}
    {parameter : AnnotationParameter} :
    Takes t { type := mergeComponent, arguments } parameter ↔
      parameter = { name := scopeParameter, hasDefault := true } := by
  have hmarks : ¬ Marks t { type := mergeComponent, arguments } := by
    have hbuiltin : mergeComponent ∈ contributionScope :: inputOnly := by decide
    rw [← isMarker_iff, isMarker, SymbolTable.builtin_not_scopeMarker hb hbuiltin]
    exact Bool.false_ne_true
  unfold Takes
  rw [← parameter?_eq_some_iff, SymbolTable.parameter?, parametersOf_mergeComponent hb]
  refine ⟨fun h => (Option.some.inj h.2).symm, ?_⟩
  rintro rfl
  exact ⟨hmarks, rfl⟩

/-! ## The request -/

namespace Written

theorem gives_iff (hb : t.SeesBuiltins) {m : Name} :
    Gives t { type := mergeComponent, arguments := style.arguments S E } m ↔
      style.usesMarker = false ∧ m = S := by
  rw [← ofArgument?_eq_some_iff, ofArgument?_of_written hb]
  cases style.usesMarker <;> simp [eq_comm]

theorem argumentOn_iff (hb : t.SeesBuiltins) (h : Written t style S E d)
    {usage : AnnotationUsage} {m : Name} : ArgumentOn t (usagesOn d) usage m ↔
      usage = { type := mergeComponent, arguments := style.arguments S E } ∧
        style.usesMarker = false ∧ m = S := by
  constructor
  · rintro ⟨husage, htakes, hgives⟩
    obtain rfl := h.sole usage husage htakes
    exact ⟨rfl, (gives_iff hb).mp hgives⟩
  · rintro ⟨rfl, hgives⟩
    exact ⟨h.usage, ⟨_, (takes_mergeComponent_iff hb).mpr rfl⟩, (gives_iff hb).mpr hgives⟩

/-- What is left out is the scope of this annotation, and it may be. -/
theorem of_leftOut (hb : t.SeesBuiltins) (h : Written t style S E d) {usage : AnnotationUsage}
    {parameter : AnnotationParameter} (hleftOut : LeftOut t (usagesOn d) usage parameter) :
    style.usesMarker = true ∧ parameter.hasDefault = true := by
  obtain ⟨husage, htakes, hnot⟩ := hleftOut
  obtain rfl := h.sole usage husage ⟨parameter, htakes⟩
  obtain rfl := (takes_mergeComponent_iff hb).mp htakes
  refine ⟨?_, rfl⟩
  by_contra hgives
  exact hnot S ((gives_iff hb).mpr ⟨Bool.eq_false_of_not_eq_true hgives, rfl⟩)

theorem admissible (hb : t.SeesBuiltins) (h : Written t style S E d) :
    Admissible t (usagesOn d) := by
  refine ⟨?_, fun _ _ hleftOut => (h.of_leftOut hb hleftOut).2⟩
  rintro ⟨m, m', hm, hm', hne⟩
  exact hne (((h.markers m).mp hm).2.trans ((h.markers m').mp hm').2.symm)

/-- The scope of the request, however it is written. -/
theorem resolve_eq (hb : t.SeesBuiltins) (h : Written t style S E d) :
    ∃ scope, resolve t d = .ok scope ∧ scope.marker = S ∧
      scope.isClassLevel = style.usesMarker := by
  obtain ⟨expected, hexpected, hmarker, hlevel⟩ : ∃ expected : Scope,
      Decides t (usagesOn d) d.name (.ok expected) ∧ expected.marker = S ∧
        expected.isClassLevel = style.usesMarker := by
    cases hstyle : style.usesMarker with
    | true =>
        obtain ⟨usage, husage⟩ := (h.markers S).mpr ⟨hstyle, rfl⟩
        refine ⟨_, .byMarker (h.admissible hb) (fun m => ?_) husage, rfl, rfl⟩
        rintro ⟨other, hother⟩
        exact Bool.noConfusion (hstyle.symm.trans ((h.argumentOn_iff hb).mp hother).2.1)
    | false =>
        have hgiven := (h.argumentOn_iff hb).mpr ⟨rfl, hstyle, rfl⟩
        refine ⟨_, .byArgument (h.admissible hb) ⟨⟨_, hgiven⟩, fun m => ?_, fun usage p hp => ?_⟩
          hgiven fun m hm => ?_, rfl, rfl⟩
        · rintro ⟨other, hother⟩
          exact ((h.argumentOn_iff hb).mp hother).2.2
        · exact Bool.noConfusion (hstyle.symm.trans (h.of_leftOut hb hp).1)
        · exact Bool.noConfusion (hstyle.symm.trans ((h.markers m).mp hm).1)
  have hsame := hexpected.sameOutcome (decides_resolve t d)
  cases hresolve : resolve t d with
  | error e =>
      rw [hresolve] at hsame
      exact hsame.elim
  | ok scope =>
      rw [hresolve] at hsame
      exact ⟨scope, rfl, hsame.1.symm.trans hmarker, hsame.2.symm.trans hlevel⟩

theorem exclusionsOf_eq (hb : t.SeesBuiltins) (h : Written t style S E d) :
    exclusionsOf t d = Name.sortedSet E := by
  have hannotation : d.annotation? mergeComponent =
      some { type := mergeComponent, arguments := style.arguments S E } := by
    have hsome : (d.annotation? mergeComponent).isSome = true :=
      List.find?_isSome.mpr ⟨_, h.usage, by simp⟩
    obtain ⟨found, hfound⟩ := Option.isSome_iff_exists.mp hsome
    -- every annotation of this class takes a scope, so there is no other one
    have htype : found.type = mergeComponent := by simpa using List.find?_some hfound
    have htakes : ∃ parameter, Takes t found parameter := by
      obtain ⟨type, arguments⟩ := found
      obtain rfl : type = mergeComponent := htype
      exact ⟨_, (takes_mergeComponent_iff hb).mpr rfl⟩
    rw [hfound, h.sole found (List.mem_of_find?_eq_some hfound) htakes]
  rw [exclusionsOf, hannotation, Option.bind_some, exclusionList?_of_written hb]
  rfl

end Written

/-- **However a merge request is written, it means the same.** A request for a scope that leaves
some names out is understood in every style as just that, unless it lacks a supertype that it has
to declare. -/
theorem call_styles_parse_alike (ops : List SymbolTable.Operation) (style : CallStyle) (S : Name)
    (E : List Name) (d : Declaration) (h : Written (SymbolTable.run ops) style S E d) :
    ∃ scope : Scope, scope.marker = S ∧ scope.isClassLevel = style.usesMarker ∧
      ∃ exclusions : List Name, exclusions = Name.sortedSet E ∧ (∀ n, n ∈ exclusions ↔ n ∈ E) ∧
        parse (SymbolTable.run ops) d =
          if d.isAnnotatedWith component = false ∨ extendsAggregate d = true then
            .ok { declaration := d, scope, exclusions, aggregate := d.aggregateName }
          else .error (.supertypeNotDeclared d.name d.aggregateName) := by
  have hb := SymbolTable.seesBuiltins_run ops
  obtain ⟨scope, hresolve, hmarker, hlevel⟩ := h.resolve_eq hb
  refine ⟨scope, hmarker, hlevel, _, rfl, fun n => Name.mem_sortedSet, ?_⟩
  unfold parse
  rw [hresolve, h.exclusionsOf_eq hb]
  by_cases hextends : d.isAnnotatedWith component = false ∨ extendsAggregate d = true
  · have hcheck : (!d.isAnnotatedWith component || extendsAggregate d) = true := by
      simpa using hextends
    rw [if_pos hextends, hcheck]
    rfl
  · have hcheck : (!d.isAnnotatedWith component || extendsAggregate d) = false := by
      simpa using hextends
    rw [if_neg hextends, hcheck]
    rfl

end MergeRequest

namespace Sample

def mergeUsage (style : MergeRequest.CallStyle) : AnnotationUsage :=
  { type := mergeComponent
    arguments := style.arguments appScope [⟨"com.app.Login"⟩, ⟨"com.app.Logout"⟩] }

/-- A component whose scope comes from a marker, with a list of exclusions as the only argument. -/
def markedComponent : Declaration :=
  { component with
    supertypes := [⟨"com.app.AppComponentMerged"⟩]
    annotations :=
      [forScope singleIn, mergeUsage .onlyPositional, { type := Vocabulary.component }] }

end Sample

namespace MergeRequest

open Scope

theorem marked_component_parses :
    Written (SymbolTable.run []) .onlyPositional Sample.appScope
      [⟨"com.app.Login"⟩, ⟨"com.app.Logout"⟩] Sample.markedComponent ∧
    ∃ request, parse (SymbolTable.run []) Sample.markedComponent = .ok request ∧
      request.scope.marker = Sample.appScope ∧ request.scope.isClassLevel = true ∧
      ∀ n, n ∈ request.exclusions ↔ n = ⟨"com.app.Login"⟩ ∨ n = ⟨"com.app.Logout"⟩ := by
  have hsole : ∀ usage ∈ Sample.markedComponent.annotations,
      takesScope (SymbolTable.run []) usage = true → usage = Sample.mergeUsage .onlyPositional := by
    decide
  have hmarkers : (classLevel (SymbolTable.run []) Sample.markedComponent).map (·.marker) =
      [Sample.appScope] := by
    decide
  have hwritten : Written (SymbolTable.run []) .onlyPositional Sample.appScope
      [⟨"com.app.Login"⟩, ⟨"com.app.Logout"⟩] Sample.markedComponent := {
    usage := List.mem_cons_of_mem _ List.mem_cons_self
    sole := fun usage husage htakes => hsole usage husage (takesScope_iff.mpr htakes)
    markers := fun m => by
      rw [← mem_classLevel_markers_iff, hmarkers, List.mem_singleton]
      simp [CallStyle.usesMarker] }
  obtain ⟨scope, hmarker, hlevel, exclusions, _, hmem, hparse⟩ :=
    call_styles_parse_alike [] .onlyPositional Sample.appScope
      [⟨"com.app.Login"⟩, ⟨"com.app.Logout"⟩] Sample.markedComponent hwritten
  rw [if_pos (Or.inr (by decide))] at hparse
  exact ⟨hwritten, _, hparse, hmarker, hlevel, fun n => (hmem n).trans List.mem_pair⟩

end MergeRequest

end ScopeMerge
