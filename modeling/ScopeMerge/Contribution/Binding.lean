import ScopeMerge.Contribution.Lookup

/-!
# Contributed bindings

A class or object can be contributed as the implementation of one of its supertypes. Each usage
of the annotation is one *binding*, of a bound type that is either named or inferred, and becomes
one lookup with one provider function:

* for a class, the function takes the implementation as its only parameter and returns it;
* for an object, it takes nothing and returns the object.

A binding is identified by its bound type and by whether it adds to a set. Two bindings of one
declaration with the same identity are refused, and so is a declaration with no supertype, or
more than one, to infer a bound type from. Nothing is contributed unless all bindings are sound.
-/

namespace ScopeMerge.Contribution

/-- What one usage of a binding annotation asks for. -/
structure Binding where
  boundType : Name
  /-- Whether the binding adds to a set of the bound type. -/
  intoSet : Bool
deriving DecidableEq, Inhabited

namespace Binding

/-- The supertypes that a bound type can be inferred from. -/
def candidates (d : Declaration) : List Name :=
  d.supertypes.filter fun supertype => !Vocabulary.trivialSupertypes.contains supertype

/-- The bound type of a usage that names none. -/
def inferredType (d : Declaration) : Except MergeError Name :=
  match candidates d with
  | [] => .error (.noBoundType d.name)
  | [bound] => .ok bound
  | several => .error (.ambiguousBoundType d.name several)

/-- The bound type that a usage names. -/
def namedType? (table : SymbolTable) (usage : AnnotationUsage) : Option Name :=
  (table.argument? usage Vocabulary.boundTypeParameter).bind (·.asType?)

/-- What one usage asks for. -/
def ofUsage (table : SymbolTable) (d : Declaration) (usage : AnnotationUsage) :
    Except MergeError Binding := do
  let boundType ←
    match namedType? table usage with
    | some bound => pure bound
    | none => inferredType d
  let intoSet :=
    ((table.argument? usage Vocabulary.multibindingParameter).bind (·.asBool?)).getD false
  return { boundType, intoSet }

/-- What the remaining usages ask for, none of it asked for before. -/
def collect (table : SymbolTable) (d : Declaration) :
    List Binding → List AnnotationUsage → Except MergeError (List Binding)
  | _, [] => .ok []
  | earlier, usage :: rest => do
    let binding ← ofUsage table d usage
    refuseUnless (!earlier.contains binding) (.duplicateContribution d.name binding.boundType)
    let later ← collect table d (binding :: earlier) rest
    return binding :: later

/-- The name of the lookup for a binding, inside the lookup namespace. -/
def lookupName (d : Declaration) (binding : Binding) : String :=
  d.name.flatten ++ "Binds" ++ binding.boundType.flatten ++
    (if binding.intoSet then "IntoSet" else "")

/-- The name of the function that provides a binding. -/
def providerName (d : Declaration) (binding : Binding) : String :=
  "provide" ++ d.joinedSimpleName ++ binding.boundType.simpleName

/-- The function that provides a binding. -/
def provider (d : Declaration) (binding : Binding) : MemberFunction :=
  let implementation := Text.decapitalize d.joinedSimpleName
  let parameters : List Parameter := [{ name := implementation, type := d.name }]
  { name := providerName d binding
    parameters := if d.kind = .object then [] else parameters
    returnType := some binding.boundType
    annotations := { type := Vocabulary.provides } ::
      (if binding.intoSet then [{ type := Vocabulary.intoSet }] else [])
    body := some (if d.kind = .object then .singleton d.name else .forward implementation) }

/-- The lookup for a binding. -/
def lookup (d : Declaration) (scope : Scope) (binding : Binding) : Declaration :=
  { emptyLookup (lookupName d binding) d scope with functions := [provider d binding] }

end Binding

/-- The lookups for a declaration with binding annotations, one for each usage of the given
one. -/
def bindingLookups (table : SymbolTable) (annotationType : Name) (d : Declaration) : Outcome := do
  requirePublic d
  refuseUnless (d.kind = .classType || d.kind = .object) (.notAClass d.name annotationType)
  let scope ← Scope.resolve table d
  let bindings ← Binding.collect table d [] (d.annotationsOf annotationType)
  return bindings.map (Binding.lookup d scope)

end ScopeMerge.Contribution
