import Mathlib.Data.List.Nodup
import ScopeMerge.Proofs.Spelling
import ScopeMerge.UnitFormat

/-!
# Units survive their file format

A unit is written as a value and the value as a text, and both steps are undone by
reading. For the text this is `Json.parse?_of_isWritten`; this file is about the value.

`Recovers` says that a reader undoes a writer. It is shown for the leaves, and handed up
from the items of a list to the list and from the members of an object to the object,
once for each structure a unit consists of. What a reader finds under a key is the
same for every structure: the writer's value for a member that is always there, and for
one that can be left out, `written` or a value that may be missing. The reader refuses a
key that is there twice, so what is written has to be `Keyed`: its keys are some of those
of the structure, and these differ.

Two more things have to hold of what is written before the whole text can be read back:
its scalars can be written (`Passes`), and its function bodies are neither too deep nor
hold a number that could not be held.
-/

namespace ScopeMerge.UnitFormat

open Json (isWritten allInItems allInMembers)

/-- Reading undoes writing. -/
def Recovers {α : Type} (decode : Json → Option α) (encode : α → Json) : Prop :=
  ∀ value, decode (encode value) = some value

/-! ## Keys -/

/-- The members of what is written are found under the keys of the structure. -/
def Keyed {α : Type} (keys : List String) (encode : α → Json) : Prop :=
  ∀ value, members? keys (encode value) = (encode value).asObject?

/-- The keys of members are some of these, in their order. -/
def InOrder (keys : List String) (members : Members) : Prop :=
  (members.map Prod.fst).Sublist keys

theorem InOrder.refl (members : Members) : InOrder (members.map Prod.fst) members :=
  List.Sublist.refl _

theorem InOrder.append {keys more : List String} {members others : Members}
    (h : InOrder keys members) (h' : InOrder more others) :
    InOrder (keys ++ more) (members ++ others) := by
  rw [InOrder, List.map_append]
  exact List.Sublist.append h h'

theorem inOrder_optional (key : String) (value : Option Json) :
    InOrder [key] (optional key value) := by
  cases value with
  | none => exact List.nil_sublist _
  | some json => exact List.Sublist.refl _

theorem inOrder_listed {α : Type} (key : String) (encode : α → Json) (items : List α) :
    InOrder [key] (listed key encode items) := by
  unfold listed
  split
  · exact List.nil_sublist _
  · exact List.Sublist.refl _

/-- Members in the order of their keys are found as they are, if the keys differ. The keys come
together from the parts that are written, and are compared with the expected ones afterwards. -/
theorem members?_of_inOrder {keys expected : List String} {members : Members}
    (h : InOrder keys members) (hkeys : keys = expected) (hnodup : expected.Nodup) :
    members? expected (.object members) = some members := by
  have honce : expected.all ((members.map Prod.fst).count · ≤ 1) = true := by
    refine List.all_eq_true.mpr fun key _ => decide_eq_true ?_
    exact List.nodup_iff_count_le_one.mp (List.Sublist.nodup (hkeys ▸ h) hnodup) key
  rw [members?, if_pos honce]

-- A key that is there twice is refused, whatever stands under it.
example : usage? (.object [("type", ofName ⟨"A"⟩), ("type", ofName ⟨"A"⟩)]) = none := by rfl

/-! ## What is found under a key -/

/-- What is written for a list: nothing if it is empty. -/
def written {α : Type} (encode : α → Json) (items : List α) : Option Json :=
  if items.isEmpty then none else some (.array (items.map encode))

/-- What a member that may be absent or null is read as. -/
def maybeOf? {α : Type} (decode : Json → Option α) : Option Json → Option (Option α)
  | none => some none
  | some .null => some none
  | some json => (decode json).map some

section

variable {α : Type} {decode : Json → Option α} {encode : α → Json}

theorem listed_eq (key : String) (items : List α) :
    listed key encode items = optional key (written encode items) := by
  unfold listed written
  split <;> rfl

@[simp] theorem lookup_optional (key other : String) (value : Option Json) :
    (optional other value).lookup key = if key = other then value else none := by
  cases value with
  | none => exact (ite_self none).symm
  | some json =>
      by_cases h : key = other
      · simp [optional, h]
      · simp [optional, List.lookup_cons, h, beq_eq_false_iff_ne.mpr h]

@[simp] theorem lookup_listed (key other : String) (items : List α) :
    (listed other encode items).lookup key =
      if key = other then written encode items else none := by
  rw [listed_eq, lookup_optional]

theorem orElse?_eq (members : Members) (key : String) (neutral : α) :
    orElse? members key neutral decode = (members.lookup key).elim (some neutral) decode := by
  unfold orElse?
  cases members.lookup key <;> rfl

theorem maybe?_eq (members : Members) (key : String) :
    maybe? members key decode = maybeOf? decode (members.lookup key) := rfl

theorem items?_map (h : Recovers decode encode) (items : List α) :
    items? decode (.array (items.map encode)) = some items := by
  have hread : decode ∘ encode = fun value => pure value := funext h
  rw [items?, Json.asArray?, Option.bind_some, List.mapM_map, hread, List.mapM_pure, List.map_id']
  rfl

theorem elim_written (h : Recovers decode encode) (items : List α) :
    (written encode items).elim (some []) (items? decode) = some items := by
  unfold written
  split
  · next hempty => rw [List.isEmpty_iff.mp hempty]; rfl
  · exact items?_map h items

theorem maybeOf?_map (h : Recovers decode encode) (hnull : ∀ value, encode value ≠ .null)
    (value : Option α) : maybeOf? decode (value.map encode) = some value := by
  cases value with
  | none => rfl
  | some value =>
      rw [Option.map_some, maybeOf?, h]
      · rfl
      · exact hnull value

end

/-! ## Scalars -/

/-- Whatever is written, its scalars pass a test. -/
def Passes {α : Type} (test : Json → Bool) (encode : α → Json) : Prop :=
  ∀ value, (encode value).allScalars test = true

section

variable {α : Type} {test : Json → Bool} {encode : α → Json}

theorem allInItems_map (h : Passes test encode) (items : List α) :
    allInItems test (items.map encode) = true := by
  induction items with
  | nil => rfl
  | cons item items ih => rw [List.map_cons, allInItems, h, ih]; rfl

@[simp] theorem allInMembers_append (members others : Members) :
    allInMembers test (members ++ others) =
      (allInMembers test members && allInMembers test others) := by
  induction members with
  | nil => rfl
  | cons member members ih => rw [List.cons_append, allInMembers, allInMembers, ih, Bool.and_assoc]

theorem allInMembers_optional (h : Passes test encode) (key : String) (value : Option α) :
    allInMembers test (optional key (value.map encode)) = true := by
  cases value with
  | none => rfl
  | some value =>
      rw [Option.map_some, optional, Option.map_some, Option.toList_some, allInMembers, h]
      rfl

theorem allInMembers_listed (h : Passes test encode) (key : String) (items : List α) :
    allInMembers test (listed key encode items) = true := by
  unfold listed
  split
  · rfl
  · rw [allInMembers, Json.allScalars, allInItems_map h]
    rfl

end

/-! ## Annotations -/

theorem recovers_text : Recovers Json.asText? .text := fun _ => rfl

theorem recovers_bool : Recovers Json.asBool? .bool := fun _ => rfl

theorem recovers_name : Recovers name? ofName := fun _ => rfl

theorem toInt?_ofInt (value : Int) : (Json.Number.ofInt value).toInt? = some value := by
  have hwhole : ¬((Json.Number.ofInt value).tail ≠ "" ∨
      ((Json.Number.ofInt value).negative ∧ (Json.Number.ofInt value).whole = 0)) := by
    rintro (htail | ⟨hneg, hzero⟩)
    · exact htail rfl
    · have hlt : value < 0 := of_decide_eq_true hneg
      have hnone : value.natAbs = 0 := hzero
      omega
  rw [Json.Number.toInt?, if_neg hwhole]
  refine congrArg some ?_
  show (if decide (value < 0) = true then -(value.natAbs : Int) else value.natAbs) = value
  split
  · next hneg =>
    have hlt : value < 0 := of_decide_eq_true hneg
    omega
  · next hneg =>
    rw [decide_eq_true_iff] at hneg
    omega

theorem recovers_int64 : Recovers int64? fun value => .int value.toInt := by
  intro value
  have hread : (Json.int value.toInt).asInt? = some value.toInt := toInt?_ofInt value.toInt
  rw [int64?, hread, Option.bind_some,
    if_pos ⟨value.minValue_le_toInt, value.toInt_le⟩, Int64.ofInt_toInt]

theorem recovers_value : Recovers value? ofValue := by
  intro value
  cases value with
  | type name => rfl
  | types names => simp [value?, ofValue, items?_map recovers_name]
  | string text => rfl
  | bool value => rfl
  | int value => simp [value?, ofValue, recovers_int64 value]

theorem keyed_argument : Keyed argumentKeys ofArgument := fun _ =>
  members?_of_inOrder (.append (inOrder_optional _ _) (.refl [_])) rfl (by decide)

theorem recovers_argument : Recovers argument? ofArgument := by
  intro argument
  rw [argument?, keyed_argument argument]
  simp [ofArgument, Json.asObject?, need?, maybe?_eq, List.lookup_append,
    List.lookup_cons, recovers_value argument.value, maybeOf?_map recovers_text]

theorem keyed_usage : Keyed usageKeys ofUsage := fun _ =>
  members?_of_inOrder (.append (.refl [_]) (inOrder_listed _ _ _)) rfl (by decide)

theorem recovers_usage : Recovers usage? ofUsage := by
  intro usage
  rw [usage?, keyed_usage usage]
  simp [ofUsage, Json.asObject?, need?, list?, orElse?_eq, List.lookup_cons,
    recovers_name usage.type, elim_written recovers_argument]

-- The values alone, without their keys, are read as well.
example : usage? (.array [ofName ⟨"com.app.Scope"⟩]) =
    some { type := ⟨"com.app.Scope"⟩, arguments := [] } := by rfl

theorem keyed_annotationParameter :
    Keyed annotationParameterKeys ofAnnotationParameter := fun _ =>
  members?_of_inOrder (.refl _) rfl (by decide)

theorem recovers_annotationParameter :
    Recovers annotationParameter? ofAnnotationParameter := by
  intro parameter
  rw [annotationParameter?, keyed_annotationParameter parameter]
  simp [ofAnnotationParameter, Json.asObject?, need?, orElse?_eq,
    List.lookup_cons, recovers_text parameter.name, recovers_bool parameter.hasDefault]

/-! ## Functions -/

theorem keyed_parameter : Keyed parameterKeys ofParameter := fun _ =>
  members?_of_inOrder (.append (.refl [_, _]) (inOrder_listed _ _ _)) rfl (by decide)

theorem recovers_parameter : Recovers parameter? ofParameter := by
  intro parameter
  rw [parameter?, keyed_parameter parameter]
  simp [ofParameter, Json.asObject?, need?, list?, orElse?_eq,
    List.lookup_cons, recovers_text parameter.name, recovers_name parameter.type,
    elim_written recovers_usage]

/-- A function body has no scalars but texts. -/
theorem passes_body {test : Json → Bool} (h : ∀ text, test (.text text) = true) :
    Passes test ofBody := by
  have htexts : Passes test Json.text := h
  intro body
  cases body with
  | forward parameter => simp [ofBody, Json.allScalars, allInMembers, h]
  | singleton object => simp [ofBody, ofName, Json.allScalars, allInMembers, h]
  | createComponent component parent arguments =>
      simp [ofBody, ofName, Json.allScalars, allInMembers, h, allInItems_map htexts]

theorem recovers_body : Recovers body? ofBody := by
  intro body
  have hheld : (ofBody body).isHoldable = true := passes_body (fun _ => rfl) body
  rw [body?, hheld]
  cases body with
  | forward parameter => rfl
  | singleton object => rfl
  | createComponent component parent arguments =>
      have harguments : items? (·.asText?) (.array (arguments.map Json.text)) = some arguments :=
        items?_map recovers_text arguments
      simp [ofBody, tagged?, members?, need?, List.lookup_cons, recovers_name component,
        recovers_name parent, recovers_text "create_component", harguments]

theorem ofBody_ne_null (body : FunctionBody) : ofBody body ≠ .null := by
  cases body <;> exact Json.noConfusion

theorem ofName_ne_null (name : Name) : ofName name ≠ .null := Json.noConfusion

theorem keyed_function : Keyed functionKeys ofFunction := fun _ =>
  members?_of_inOrder
    (.append (.append (.append (.append (.append (.refl [_]) (inOrder_listed _ _ _))
      (inOrder_optional _ _)) (.refl [_])) (inOrder_listed _ _ _)) (inOrder_optional _ _))
    rfl (by decide)

theorem recovers_function : Recovers function? ofFunction := by
  intro function
  rw [function?, keyed_function function]
  simp [ofFunction, Json.asObject?, need?, list?, orElse?_eq, maybe?_eq,
    List.lookup_append, List.lookup_cons,
    recovers_text function.name, recovers_bool function.isAbstract,
    elim_written recovers_parameter, elim_written recovers_usage,
    maybeOf?_map recovers_name ofName_ne_null, maybeOf?_map recovers_body ofBody_ne_null]

/-! ## Declarations -/

theorem recovers_kind : Recovers kind? fun kind => .text (kindWord kind) := by
  intro kind
  cases kind <;> rfl

theorem recovers_visibility :
    Recovers visibility? fun visibility => .text (visibilityWord visibility) := by
  intro visibility
  cases visibility <;> rfl

theorem keyed_declaration : Keyed declarationKeys ofDeclaration := fun _ =>
  members?_of_inOrder
    (.append (.append (.append (.append (.append (.append (.append (.refl [_, _, _, _, _])
      (inOrder_listed _ _ _)) (inOrder_listed _ _ _)) (inOrder_listed _ _ _))
      (inOrder_listed _ _ _)) (inOrder_listed _ _ _)) (inOrder_optional _ _))
      (inOrder_optional _ _))
    rfl (by decide)

theorem recovers_declaration : Recovers declaration? ofDeclaration := by
  intro d
  rw [declaration?, keyed_declaration d]
  simp [ofDeclaration, Json.asObject?, need?, list?, orElse?_eq, maybe?_eq,
    List.lookup_append, List.lookup_cons,
    recovers_name d.name, recovers_text d.package, recovers_kind d.kind,
    recovers_visibility d.visibility, recovers_bool d.isAbstract,
    elim_written recovers_usage, elim_written recovers_name, elim_written recovers_function,
    elim_written recovers_parameter, elim_written recovers_annotationParameter,
    maybeOf?_map recovers_name ofName_ne_null]

theorem keyed_file : Keyed fileKeys ofFile := fun _ =>
  members?_of_inOrder (.refl _) rfl (by decide)

theorem recovers_file : Recovers file? ofFile := by
  intro file
  rw [file?, keyed_file file]
  simp [ofFile, Json.asObject?, need?, list?, orElse?_eq, List.lookup_cons,
    recovers_text file.id.text, items?_map recovers_declaration]

theorem keyed_unit : Keyed unitKeys ofUnit := fun _ =>
  members?_of_inOrder (.refl _) rfl (by decide)

theorem recovers_unit : Recovers unit? ofUnit := by
  intro unit
  rw [unit?, keyed_unit unit]
  simp [ofUnit, Json.asObject?, list?, orElse?_eq, items?_map recovers_file]

/-! ## What a text can hold -/

theorem writes_name : Passes isWritten ofName := fun _ => rfl

theorem writes_value : Passes isWritten ofValue := by
  intro value
  cases value with
  | types names => simp [ofValue, Json.allScalars, allInMembers, allInItems_map writes_name]
  | _ => rfl

theorem writes_argument : Passes isWritten ofArgument := by
  intro argument
  have hname : Passes isWritten Json.text := fun _ => rfl
  simp [ofArgument, Json.allScalars, allInMembers, allInMembers_optional hname,
    writes_value argument.value]

theorem writes_usage : Passes isWritten ofUsage := by
  intro usage
  simp [ofUsage, Json.allScalars, allInMembers, writes_name usage.type,
    allInMembers_listed writes_argument]

theorem writes_annotationParameter : Passes isWritten ofAnnotationParameter := fun _ => rfl

theorem writes_parameter : Passes isWritten ofParameter := by
  intro parameter
  simp [ofParameter, Json.allScalars, allInMembers, isWritten, writes_name parameter.type,
    allInMembers_listed writes_usage]

theorem writes_body : Passes isWritten ofBody := passes_body fun _ => rfl

theorem writes_function : Passes isWritten ofFunction := by
  intro function
  simp [ofFunction, Json.allScalars, allInMembers, isWritten,
    allInMembers_listed writes_parameter, allInMembers_listed writes_usage,
    allInMembers_optional writes_name, allInMembers_optional writes_body]

theorem writes_declaration : Passes isWritten ofDeclaration := by
  intro d
  simp [ofDeclaration, Json.allScalars, allInMembers, isWritten, writes_name d.name,
    allInMembers_listed writes_usage, allInMembers_listed writes_name,
    allInMembers_listed writes_function, allInMembers_listed writes_parameter,
    allInMembers_listed writes_annotationParameter, allInMembers_optional writes_name]

theorem writes_file : Passes isWritten ofFile := by
  intro file
  simp [ofFile, Json.allScalars, allInMembers, isWritten, allInItems_map writes_declaration]

theorem writes_unit : Passes isWritten ofUnit := by
  intro unit
  simp [ofUnit, Json.allScalars, allInMembers, allInItems_map writes_file]

/-! ## Function bodies -/

theorem depthOfItems_texts (texts : List String) :
    Json.depthOfItems (texts.map .text) = 0 := by
  induction texts with
  | nil => rfl
  | cons text texts ih => rw [List.map_cons, Json.depthOfItems, ih]; rfl

/-- The deepest body is an object with a list of texts in it. -/
theorem depth_ofBody_le (body : FunctionBody) : (ofBody body).depth ≤ 2 := by
  cases body <;> simp [ofBody, ofName, Json.depth, Json.depthOfMembers, depthOfItems_texts]

theorem itemsOf_functions (d : Declaration) :
    itemsOf declarationKeys "functions" (ofDeclaration d) = d.functions.map ofFunction := by
  have hfound : (members? declarationKeys (ofDeclaration d)).bind (·.lookup "functions") =
      written ofFunction d.functions := by
    rw [keyed_declaration d]
    simp [ofDeclaration, Json.asObject?, List.lookup_append, List.lookup_cons]
  rw [itemsOf, hfound]
  unfold written
  split
  · next hempty => rw [List.isEmpty_iff.mp hempty]; rfl
  · rfl

theorem lookup_body (function : MemberFunction) :
    (members? functionKeys (ofFunction function)).bind (·.lookup "body") =
      function.body.map ofBody := by
  rw [keyed_function function]
  simp [ofFunction, Json.asObject?, List.lookup_append, List.lookup_cons]

/-- The bodies that are found in a written unit are written bodies. -/
theorem exists_body_of_mem_bodies {unit : CompilationUnit} {json : Json}
    (h : json ∈ bodies (ofUnit unit)) : ∃ body, json = ofBody body := by
  have hfiles : itemsOf unitKeys "files" (ofUnit unit) = unit.files.map ofFile := rfl
  have hdeclarations (file : SourceFile) :
      itemsOf fileKeys "declarations" (ofFile file) = file.declarations.map ofDeclaration := rfl
  obtain ⟨function, hfunction, hbody⟩ := List.mem_filterMap.mp h
  obtain ⟨d, hd, hfunction⟩ := List.mem_flatMap.mp hfunction
  obtain ⟨file, hfile, hd⟩ := List.mem_flatMap.mp hd
  rw [hfiles] at hfile
  obtain ⟨file, -, rfl⟩ := List.mem_map.mp hfile
  rw [hdeclarations] at hd
  obtain ⟨d, -, rfl⟩ := List.mem_map.mp hd
  rw [itemsOf_functions] at hfunction
  obtain ⟨function, -, rfl⟩ := List.mem_map.mp hfunction
  rw [lookup_body] at hbody
  obtain ⟨body, -, rfl⟩ := Option.map_eq_some_iff.mp hbody
  exact ⟨body, rfl⟩

/-! ## Units -/

/-- What is read from the compact text of a unit is the unit. -/
theorem parse?_compact (unit : CompilationUnit) : parse? (compact unit) = some unit := by
  have hshallow : (bodies (ofUnit unit)).all (·.depth ≤ bodyDepth) = true := by
    refine List.all_eq_true.mpr fun json hjson => decide_eq_true ?_
    obtain ⟨body, rfl⟩ := exists_body_of_mem_bodies hjson
    exact Nat.le_trans (depth_ofBody_le body) (by decide)
  rw [parse?, compact, Json.parse?_of_isWritten (writes_unit unit), Option.bind_some,
    if_pos hshallow, recovers_unit]

end ScopeMerge.UnitFormat
