import ScopeMerge.Proofs.Growth
import Mathlib.Data.List.Perm.Basic

/-!
# The table a compilation starts from

Before its first round a compilation has added its inputs one after the other to
the table of built-in annotation classes. `loadedTable` is the result, and
`compile_eq_ok_iff` says that a compilation is: a well-formed loaded table, and
a run of rounds from it.

The built-in classes stay the ones found under their names in every table that
starts with them, since nothing that declares one of these names again is
accepted. What the library relies on is `builtin_not_scopeMarker`: no annotation
that a processor looks for is a scope marker.
-/

namespace ScopeMerge

open Vocabulary

/-! ## Inputs -/

namespace Session

namespace Input

/-- The files of an input. -/
def files : Input → List SourceFile
  | dependency unit => unit.files
  | sources unit => unit.files

/-- Whether the files of an input belong to the compilation itself. -/
def isLocal : Input → Bool
  | dependency _ => false
  | sources _ => true

/-- The files of an input that are to be compiled. -/
def sourceFiles : Input → List SourceFile
  | dependency _ => []
  | sources unit => unit.files

end Input

/-- All files given to a compilation. -/
def inputFiles (inputs : List Input) : List SourceFile :=
  inputs.flatMap Input.files

/-- All declarations given to a compilation. -/
def inputDeclarations (inputs : List Input) : List Declaration :=
  (inputFiles inputs).flatMap (·.declarations)

/-- The declarations to be compiled. -/
def sourceDeclarations (inputs : List Input) : List Declaration :=
  (inputs.flatMap Input.sourceFiles).flatMap (·.declarations)

/-- The files of all prior compilation results. -/
def dependencyFiles (inputs : List Input) : List SourceFile :=
  inputs.flatMap fun
    | .dependency unit => unit.files
    | .sources _ => []

/-- The declarations of all prior compilation results. -/
def dependencyDeclarations (inputs : List Input) : List Declaration :=
  (dependencyFiles inputs).flatMap (·.declarations)

/-- A table grown by all inputs. -/
def grownBy (table : SymbolTable) : List Input → SymbolTable
  | [] => table
  | input :: rest => grownBy (table.append input.files input.isLocal) rest

/-- The table before the first round. -/
def loadedTable (inputs : List Input) : SymbolTable :=
  grownBy .initial inputs

theorem files_grownBy (table : SymbolTable) (inputs : List Input) :
    (grownBy table inputs).files = table.files ++ inputFiles inputs := by
  induction inputs generalizing table with
  | nil => rw [grownBy, inputFiles, List.flatMap_nil, List.append_nil]
  | cons input rest ih =>
      rw [grownBy, ih, SymbolTable.files_append, List.append_assoc]
      rfl

theorem localFiles_grownBy (table : SymbolTable) (inputs : List Input) :
    (grownBy table inputs).localFiles = table.localFiles ++ inputs.flatMap Input.sourceFiles := by
  induction inputs generalizing table with
  | nil => rw [grownBy, List.flatMap_nil, List.append_nil]
  | cons input rest ih =>
      rw [grownBy, ih]
      cases input <;>
        simp [Input.files, Input.isLocal, Input.sourceFiles]

theorem incoming_grownBy (table : SymbolTable) (inputs : List Input) :
    (grownBy table inputs).incoming =
      table.incoming ++ (inputs.flatMap Input.sourceFiles).map (·.id) := by
  induction inputs generalizing table with
  | nil => rw [grownBy, List.flatMap_nil, List.map_nil, List.append_nil]
  | cons input rest ih =>
      rw [grownBy, ih]
      cases input <;>
        simp [Input.files, Input.isLocal, Input.sourceFiles, SymbolTable.append]

theorem files_loadedTable (inputs : List Input) :
    (loadedTable inputs).files = SymbolTable.initial.files ++ inputFiles inputs :=
  files_grownBy _ inputs

theorem localFiles_loadedTable (inputs : List Input) :
    (loadedTable inputs).localFiles = inputs.flatMap Input.sourceFiles :=
  localFiles_grownBy _ inputs

theorem localDeclarations_loadedTable (inputs : List Input) :
    (loadedTable inputs).localDeclarations = sourceDeclarations inputs := by
  rw [SymbolTable.localDeclarations, localFiles_loadedTable]
  rfl

theorem incoming_loadedTable (inputs : List Input) :
    (loadedTable inputs).incoming = (loadedTable inputs).localFiles.map (·.id) := by
  rw [localFiles_loadedTable]
  exact incoming_grownBy _ inputs

theorem inputFiles_perm (inputs : List Input) :
    (dependencyFiles inputs ++ inputs.flatMap Input.sourceFiles).Perm (inputFiles inputs) := by
  refine (List.flatMap_append_perm inputs _ _).trans (List.Perm.of_eq ?_)
  refine List.flatMap_congr fun input _ => ?_
  cases input with
  | dependency unit => exact List.append_nil _
  | sources unit => rfl

/-- A file to be compiled is among the files given. -/
theorem sourceFiles_subset {inputs : List Input} {file : SourceFile}
    (h : file ∈ inputs.flatMap Input.sourceFiles) : file ∈ inputFiles inputs := by
  obtain ⟨input, hinput, hfile⟩ := List.mem_flatMap.mp h
  refine List.mem_flatMap.mpr ⟨input, hinput, ?_⟩
  cases input with
  | dependency unit => exact absurd hfile (by simp [Input.sourceFiles])
  | sources unit => exact hfile

/-! ## Adding inputs -/

theorem add_eq (session : Session) (input : Input) :
    session.add input =
      (session.table.addUnit { files := input.files } input.isLocal).map
        fun table => { session with table } := by
  cases input <;> rfl

theorem addAll_eq_ok_iff {session loaded : Session} (hw : session.table.WellFormed)
    {inputs : List Input} :
    session.addAll inputs = .ok loaded ↔
      loaded = { session with table := grownBy session.table inputs } ∧
        loaded.table.WellFormed := by
  induction inputs generalizing session with
  | nil =>
      rw [addAll, grownBy]
      refine ⟨?_, ?_⟩
      · intro h
        obtain rfl := Except.ok.inj h
        exact ⟨rfl, hw⟩
      · intro h
        obtain ⟨rfl, _⟩ := h
        rfl
  | cons input rest ih =>
      rw [addAll, grownBy, add_eq]
      cases hadd : session.table.addUnit { files := input.files } input.isLocal with
      | error e =>
          refine ⟨?_, ?_⟩
          · intro h
            exact nomatch h
          · intro h
            obtain ⟨rfl, hext⟩ := h
            -- the whole table is well formed, so this part of it was too
            have hpart : (session.table.append input.files input.isLocal).WellFormed := by
              have hfiles := files_grownBy (session.table.append input.files input.isLocal) rest
              unfold SymbolTable.WellFormed at hext ⊢
              rw [hfiles, List.pairwise_append] at hext
              exact hext.1
            have hok : session.table.addUnit { files := input.files } input.isLocal = .ok _ :=
              (SymbolTable.addUnit_eq_ok_iff hw).mpr ⟨rfl, hpart⟩
            rw [hadd] at hok
            exact nomatch hok
      | ok grown =>
          obtain ⟨rfl, hgrown⟩ := (SymbolTable.addUnit_eq_ok_iff hw).mp hadd
          exact @ih { session with table := _ } hgrown

end Session

/-! ## The built-in annotation classes -/

/-- The annotations that mean something on a declaration that is given to a compilation: what a
processor looks for, and what makes an annotation class a scope marker. Nothing generated carries
one of them. -/
def Vocabulary.inputOnly : List Name :=
  [contributesTo, contributesBinding, contributesSubcomponent, subcomponentFactory,
    mergeComponent, contributingAnnotation, legacyContributesBinding, legacyContributesTo,
    scopeMarker]

namespace SymbolTable

variable {table : SymbolTable}

theorem initial_wellFormed : initial.WellFormed := by
  decide

theorem initial_distinctNames : ∀ file ∈ initial.files, file.DistinctNames := by
  decide

/-- A table whose first files are the built-in ones. -/
def SeesBuiltins (table : SymbolTable) : Prop :=
  initial.files <+: table.files

theorem SeesBuiltins.append (h : table.SeesBuiltins) (fs : List SourceFile) (isLocal : Bool) :
    (table.append fs isLocal).SeesBuiltins := by
  unfold SeesBuiltins
  rw [files_append]
  exact h.trans (List.prefix_append _ _)

theorem SeesBuiltins.find?_eq (h : table.SeesBuiltins) {name : Name} {d : Declaration}
    (hd : initial.find? name = some d) : table.find? name = some d := by
  obtain ⟨rest, hrest⟩ := h
  rw [SymbolTable.find?_eq, ← hrest, List.findSome?_append, ← SymbolTable.find?_eq, hd]
  rfl

/-- **No annotation that a processor looks for is a scope marker**, and neither is the record of a
scope on a lookup. -/
theorem builtin_not_scopeMarker (h : table.SeesBuiltins) {name : Name}
    (hname : name ∈ contributionScope :: inputOnly) : table.isScopeMarker name = false := by
  have hbuiltin : ∀ n ∈ contributionScope :: inputOnly,
      (initial.find? n).isSome = true ∧ initial.isScopeMarker n = false := by decide
  obtain ⟨hsome, hmarker⟩ := hbuiltin name hname
  obtain ⟨d, hd⟩ := Option.isSome_iff_exists.mp hsome
  unfold isScopeMarker at hmarker ⊢
  rw [h.find?_eq hd, ← hd]
  exact hmarker

/-- The record of a scope has one parameter, the scope, and it is required. -/
theorem parametersOf_contributionScope (h : table.SeesBuiltins) :
    table.parametersOf contributionScope = [{ name := scopeParameter }] := by
  have hbuiltin : (initial.find? contributionScope).map (·.parameters)
      = some [{ name := scopeParameter }] := by decide
  obtain ⟨d, hd, hparameters⟩ := Option.map_eq_some_iff.mp hbuiltin
  unfold parametersOf
  rw [h.find?_eq hd, Option.map_some, hparameters, Option.getD_some]

end SymbolTable

namespace Session

theorem seesBuiltins_loadedTable (inputs : List Input) : (loadedTable inputs).SeesBuiltins := by
  unfold SymbolTable.SeesBuiltins
  rw [files_loadedTable]
  exact List.prefix_append _ _

theorem distinctNames_loadedTable {inputs : List Input}
    (hdistinct : ∀ file ∈ inputFiles inputs, file.DistinctNames) :
    ∀ file ∈ (loadedTable inputs).files, file.DistinctNames := by
  rw [files_loadedTable]
  intro file hfile
  rcases List.mem_append.mp hfile with hfile | hfile
  · exact SymbolTable.initial_distinctNames file hfile
  · exact hdistinct file hfile

/-- With sources that fit together a compilation is a run on the table that holds them. -/
theorem compile_eq_complete {options : Options} {maxRounds : Nat} {inputs : List Input}
    (hw : (loadedTable inputs).WellFormed) :
    compile options maxRounds inputs =
      State.complete options maxRounds { table := loadedTable inputs } := by
  have hload : ({ options, maxRounds } : Session).addAll inputs =
      .ok { table := loadedTable inputs, options, maxRounds } :=
    (@addAll_eq_ok_iff { options, maxRounds } _ SymbolTable.initial_wellFormed inputs).mpr ⟨rfl, hw⟩
  unfold compile
  rw [hload]
  rfl

/-- **A compilation loads a well-formed table and runs rounds on it.** -/
theorem compile_eq_ok_iff {options : Options} {maxRounds : Nat} {inputs : List Input}
    {final : State} :
    compile options maxRounds inputs = .ok final ↔
      (loadedTable inputs).WellFormed ∧
        State.complete options maxRounds { table := loadedTable inputs } = .ok final := by
  refine ⟨fun h => ?_, fun ⟨hw, h⟩ => (compile_eq_complete hw).trans h⟩
  -- a round is run only after everything is loaded
  have hw : (loadedTable inputs).WellFormed := by
    unfold compile at h
    cases hadd : ({ options, maxRounds } : Session).addAll inputs with
    | error e =>
        rw [hadd] at h
        exact nomatch h
    | ok loaded =>
        obtain ⟨rfl, hw⟩ := (addAll_eq_ok_iff SymbolTable.initial_wellFormed).mp hadd
        exact hw
  exact ⟨hw, (compile_eq_complete hw).symm.trans h⟩

end Session

/-! ## A sample

A library contributes an interface to a scope, and an application merges the scope. -/

namespace Sample

def appScope : Name := ⟨"com.app.AppScope"⟩

/-- A usage of an annotation that gives the scope. -/
def forScope (annotationType : Name) : AnnotationUsage :=
  { type := annotationType
    arguments := [{ name := some scopeParameter, value := .type appScope }] }

def greeter : Declaration :=
  { Declaration.topLevel .interface "com.lib" "Greeter" with
    annotations := [forScope contributesTo] }

def library : CompilationUnit :=
  { files := [{ id := ⟨"Greeter.kt"⟩, declarations := [greeter] }] }

def component : Declaration :=
  { Declaration.topLevel .interface "com.app" "AppComponent" with
    annotations := [forScope mergeComponent] }

def application : CompilationUnit :=
  { files := [{ id := ⟨"AppComponent.kt"⟩, declarations := [component] }] }

/-- Both, to be compiled together. -/
def inputs : List Session.Input :=
  [.sources library, .sources application]

theorem distinct : ∀ file ∈ Session.inputFiles inputs, file.DistinctNames := by
  decide

theorem wellFormed : (Session.loadedTable inputs).WellFormed := by
  decide

end Sample

end ScopeMerge
