import ScopeMerge.Declaration
import ScopeMerge.Json.Held
import ScopeMerge.Json.Printer
import ScopeMerge.Json.Reader

/-!
# The file format of compilation units

A compilation unit is kept as a JSON text. Every structure is an object whose members appear in
one fixed order; members that hold nothing, an empty list or an absent value, are left out, except
for a few that are always written. Reading is more liberal than writing: members may come in any
order, members that nobody asks for are ignored, and everything that has a neutral value may be
left out. A structure may also be the array of its members' values in the fixed order, which only
ends early where all that is left has a neutral value. What is present, however, has to be of the
right shape, and no member that is asked for may be there twice.
-/

namespace ScopeMerge.UnitFormat

/-! ## Writing -/

/-- A member that is left out when there is no value. -/
def optional (key : String) (value : Option Json) : List (String × Json) :=
  (value.map fun json => (key, json)).toList

/-- A member that is left out when the list is empty. -/
def listed {α : Type} (key : String) (encode : α → Json) (items : List α) :
    List (String × Json) :=
  if items.isEmpty then [] else [(key, .array (items.map encode))]

def ofName (name : Name) : Json := .text name.text

def ofValue : AnnotationValue → Json
  | .type name => .object [("type", ofName name)]
  | .types names => .object [("types", .array (names.map ofName))]
  | .string text => .object [("string", .text text)]
  | .bool value => .object [("bool", .bool value)]
  | .int value => .object [("int", .int value.toInt)]

def ofArgument (argument : Argument) : Json :=
  .object (optional "name" (argument.name.map .text) ++ [("value", ofValue argument.value)])

def ofUsage (usage : AnnotationUsage) : Json :=
  .object (("type", ofName usage.type) :: listed "arguments" ofArgument usage.arguments)

def ofAnnotationParameter (parameter : AnnotationParameter) : Json :=
  .object [("name", .text parameter.name), ("has_default", .bool parameter.hasDefault)]

def ofParameter (parameter : Parameter) : Json :=
  .object ([("name", .text parameter.name), ("type", ofName parameter.type)] ++
    listed "annotations" ofUsage parameter.annotations)

def ofBody : FunctionBody → Json
  | .forward parameter => .object [("kind", .text "forward"), ("parameter", .text parameter)]
  | .singleton object => .object [("kind", .text "instance"), ("object", ofName object)]
  | .createComponent component parent arguments =>
    .object [("kind", .text "create_component"), ("component", ofName component),
      ("parent", ofName parent), ("arguments", .array (arguments.map .text))]

def ofFunction (function : MemberFunction) : Json :=
  .object ([("name", .text function.name)] ++
    listed "parameters" ofParameter function.parameters ++
    optional "return_type" (function.returnType.map ofName) ++
    [("is_abstract", .bool function.isAbstract)] ++
    listed "annotations" ofUsage function.annotations ++
    optional "body" (function.body.map ofBody))

/-- The words for the kinds of declaration. -/
def kindWord : DeclarationKind → String
  | .interface => "interface"
  | .classType => "class"
  | .object => "object"
  | .annotationClass => "annotation"
  | .function => "function"
  | .property => "property"

/-- The words for the visibilities. -/
def visibilityWord : Visibility → String
  | .publicAccess => "public"
  | .internalAccess => "internal"
  | .protectedAccess => "protected"
  | .privateAccess => "private"

def ofDeclaration (d : Declaration) : Json :=
  .object ([("name", ofName d.name), ("package", .text d.package),
      ("kind", .text (kindWord d.kind)), ("visibility", .text (visibilityWord d.visibility)),
      ("is_abstract", .bool d.isAbstract)] ++
    listed "annotations" ofUsage d.annotations ++
    listed "supertypes" ofName d.supertypes ++
    listed "functions" ofFunction d.functions ++
    listed "constructor" ofParameter d.constructor ++
    listed "parameters" ofAnnotationParameter d.parameters ++
    optional "parent" (d.parent.map ofName) ++
    optional "origin" (d.origin.map ofName))

def ofFile (file : SourceFile) : Json :=
  .object [("id", .text file.id.text),
    ("declarations", .array (file.declarations.map ofDeclaration))]

def ofUnit (unit : CompilationUnit) : Json :=
  .object [("files", .array (unit.files.map ofFile))]

/-- The compact text of a unit. -/
def compact (unit : CompilationUnit) : String := (ofUnit unit).compact

/-- The pretty text of a unit. -/
def pretty (unit : CompilationUnit) : String := (ofUnit unit).pretty

/-! ## Reading members -/

/-- The members of an object. -/
abbrev Members := List (String × Json)

/-- The members of a structure that is written with these keys in this order. -/
def members? (keys : List String) : Json → Option Members
  | .object members =>
    if keys.all ((members.map Prod.fst).count · ≤ 1) then some members else none
  | .array values => if values.length ≤ keys.length then some (keys.zip values) else none
  | _ => none

/-- A member that has to be there. -/
def need? {α : Type} (members : Members) (key : String) (decode : Json → Option α) : Option α :=
  (members.lookup key).bind decode

/-- A member that has a neutral value when it is left out. -/
def orElse? {α : Type} (members : Members) (key : String) (neutral : α)
    (decode : Json → Option α) : Option α :=
  match members.lookup key with
  | none => some neutral
  | some json => decode json

/-- A member that may be absent or null. -/
def maybe? {α : Type} (members : Members) (key : String) (decode : Json → Option α) :
    Option (Option α) :=
  match members.lookup key with
  | none => some none
  | some .null => some none
  | some json => (decode json).map some

/-- The items of an array. -/
def items? {α : Type} (decode : Json → Option α) (json : Json) : Option (List α) :=
  json.asArray?.bind (·.mapM decode)

/-- A member that is a list, empty when it is left out. -/
def list? {α : Type} (members : Members) (key : String) (decode : Json → Option α) :
    Option (List α) :=
  orElse? members key [] (items? decode)

/-! ## Keys -/

def argumentKeys : List String := ["name", "value"]

def usageKeys : List String := ["type", "arguments"]

def annotationParameterKeys : List String := ["name", "has_default"]

def parameterKeys : List String := ["name", "type", "annotations"]

def functionKeys : List String :=
  ["name", "parameters", "return_type", "is_abstract", "annotations", "body"]

def declarationKeys : List String :=
  ["name", "package", "kind", "visibility", "is_abstract", "annotations", "supertypes",
    "functions", "constructor", "parameters", "parent", "origin"]

def fileKeys : List String := ["id", "declarations"]

def unitKeys : List String := ["files"]

/-! ## Reading structures -/

def name? (json : Json) : Option Name := json.asText?.map Name.mk

/-- An integer of the range of 64 bits. -/
def int64? (json : Json) : Option Int64 :=
  json.asInt?.bind fun n =>
    if Int64.minValue.toInt ≤ n ∧ n ≤ Int64.maxValue.toInt then some (Int64.ofInt n) else none

def value? (json : Json) : Option AnnotationValue :=
  match json with
  | .object [(key, content)] =>
    if key = "type" then (name? content).map .type
    else if key = "types" then (items? name? content).map .types
    else if key = "string" then content.asText?.map .string
    else if key = "bool" then content.asBool?.map .bool
    else if key = "int" then (int64? content).map .int
    else none
  | _ => none

def argument? (json : Json) : Option Argument := do
  let members ← members? argumentKeys json
  let name ← maybe? members "name" (·.asText?)
  let value ← need? members "value" value?
  return { name, value }

def usage? (json : Json) : Option AnnotationUsage := do
  let members ← members? usageKeys json
  let type ← need? members "type" name?
  let arguments ← list? members "arguments" argument?
  return { type, arguments }

def annotationParameter? (json : Json) : Option AnnotationParameter := do
  let members ← members? annotationParameterKeys json
  let name ← need? members "name" (·.asText?)
  let hasDefault ← orElse? members "has_default" false (·.asBool?)
  return { name, hasDefault }

def parameter? (json : Json) : Option Parameter := do
  let members ← members? parameterKeys json
  let name ← need? members "name" (·.asText?)
  let type ← need? members "type" name?
  let annotations ← list? members "annotations" usage?
  return { name, type, annotations }

/-- The tag of a structure that comes in several kinds, and the structure without it. The tag is
the member `kind`, or the first of the values in an array. -/
def tagged? : Json → Option (Json × Json)
  | .object members =>
    match members.filter (·.1 = "kind") with
    | [(_, tag)] => some (tag, .object (members.filter (·.1 ≠ "kind")))
    | _ => none
  | .array (tag :: values) => some (tag, .array values)
  | _ => none

/-- Which kind of body a structure is can only be told once the whole structure was read. So all of
it has to be held, the members that are ignored included. -/
def body? (json : Json) : Option FunctionBody := do
  if !json.isHoldable then none
  let (tag, content) ← tagged? json
  let kind ← tag.asText?
  if kind = "forward" then
    let members ← members? ["parameter"] content
    return .forward (← need? members "parameter" (·.asText?))
  else if kind = "instance" then
    let members ← members? ["object"] content
    return .singleton (← need? members "object" name?)
  else if kind = "create_component" then
    let members ← members? ["component", "parent", "arguments"] content
    let component ← need? members "component" name?
    let parent ← need? members "parent" name?
    let arguments ← need? members "arguments" (items? (·.asText?))
    return .createComponent component parent arguments
  else none

def function? (json : Json) : Option MemberFunction := do
  let members ← members? functionKeys json
  let name ← need? members "name" (·.asText?)
  let parameters ← list? members "parameters" parameter?
  let returnType ← maybe? members "return_type" name?
  let isAbstract ← orElse? members "is_abstract" false (·.asBool?)
  let annotations ← list? members "annotations" usage?
  let body ← maybe? members "body" body?
  return { name, parameters, returnType, isAbstract, annotations, body }

/-- The word for one of several alternatives. It may also be the key of an object that has this
one member and no value for it. -/
def alternative? : Json → Option String
  | .text word => some word
  | .object [(word, .null)] => some word
  | _ => none

def kind? (json : Json) : Option DeclarationKind :=
  (alternative? json).bind fun word =>
    [DeclarationKind.interface, .classType, .object, .annotationClass, .function, .property].find?
      (kindWord · = word)

def visibility? (json : Json) : Option Visibility :=
  (alternative? json).bind fun word =>
    [Visibility.publicAccess, .internalAccess, .protectedAccess, .privateAccess].find?
      (visibilityWord · = word)

def declaration? (json : Json) : Option Declaration := do
  let members ← members? declarationKeys json
  let name ← need? members "name" name?
  let package ← need? members "package" (·.asText?)
  let kind ← need? members "kind" kind?
  let visibility ← orElse? members "visibility" .publicAccess visibility?
  let isAbstract ← orElse? members "is_abstract" false (·.asBool?)
  let annotations ← list? members "annotations" usage?
  let supertypes ← list? members "supertypes" name?
  let functions ← list? members "functions" function?
  let constructor ← list? members "constructor" parameter?
  let parameters ← list? members "parameters" annotationParameter?
  let parent ← maybe? members "parent" name?
  let origin ← maybe? members "origin" name?
  return { name, package, kind, visibility, isAbstract, annotations, supertypes, functions,
           constructor, parameters, parent, origin }

def file? (json : Json) : Option SourceFile := do
  let members ← members? fileKeys json
  let id ← need? members "id" (·.asText?)
  let declarations ← list? members "declarations" declaration?
  return { id := ⟨id⟩, declarations }

def unit? (json : Json) : Option CompilationUnit := do
  let members ← members? unitKeys json
  let files ← list? members "files" file?
  return { files }

/-! ## Reading a text -/

/-- The items of a member that is a list, in a structure that is written with these keys. -/
def itemsOf (keys : List String) (key : String) (json : Json) : List Json :=
  (((members? keys json).bind (·.lookup key)).bind Json.asArray?).getD []

/-- The function bodies in a unit. -/
def bodies (unit : Json) : List Json :=
  let declarations := (itemsOf unitKeys "files" unit).flatMap (itemsOf fileKeys "declarations")
  let functions := declarations.flatMap (itemsOf declarationKeys "functions")
  functions.filterMap fun function => (members? functionKeys function).bind (·.lookup "body")

/-- How deep a function body may be nested in itself: what is kept of a text may be nested to a
depth of 127, and a body stands inside seven arrays and objects. -/
def bodyDepth : Nat := 120

/-- The unit that a text spells. -/
def parse? (text : String) : Option CompilationUnit :=
  (Json.parse? text).bind fun json =>
    if (bodies json).all (·.depth ≤ bodyDepth) then unit? json else none

end ScopeMerge.UnitFormat
