import ScopeMerge.Vocabulary

/-!
# What can be wrong with a declaration

Every way in which a contribution, a merge request or a file is refused. An error is a cause with
the names it concerns; `message` is the only place that puts it into words, and `symbol` says
which declaration it is reported at. The only error without a declaration is a file identity that
is already taken.
-/

namespace ScopeMerge

/-- The cause of a refusal. -/
inductive MergeError where
  | notPublic (declaration : Name)
  | notInterface (declaration annotationType : Name)
  | notAClass (declaration annotationType : Name)
  | notAnnotationClass (declaration annotationType : Name)
  | notInterfaceOrAbstract (declaration : Name)
  | missingScope (declaration : Name)
  | noScopeArgument (declaration annotationType : Name)
  | conflictingScopes (declaration : Name) (scopes omitted : List Name)
  | scopeMismatch (declaration explicit classLevel : Name)
  | redundantExplicitScope (declaration scope : Name)
  | noBoundType (declaration : Name)
  | ambiguousBoundType (declaration : Name) (candidates : List Name)
  | duplicateContribution (declaration boundType : Name)
  | supertypeNotDeclared (declaration expected : Name)
  | missingFactory (subcomponent : Name)
  | multipleFactories (subcomponent : Name) (factories : List Name)
  | factoryFunctionCount (factory : Name) (count : Nat)
  | factoryReturnType (factory expected : Name) (actual : Option Name)
  | factoryNotNested (factory : Name)
  | subcomponentCycle (subcomponent : Name) (lineage : List Name)
  | unsupportedLegacyParameter (declaration annotationType : Name) (parameter : String)
  | unknownDeclaration (name : Name)
  | duplicateDeclaration (name : Name)
  | fileAlreadyExists (id : FileId)
deriving DecidableEq, Inhabited

namespace MergeError

/-- The declaration an error is reported at. -/
def symbol? : MergeError → Option Name
  | notPublic d | notInterface d _ | notAClass d _ | notAnnotationClass d _
  | notInterfaceOrAbstract d | missingScope d | noScopeArgument d _ | conflictingScopes d _ _
  | scopeMismatch d _ _ | redundantExplicitScope d _ | noBoundType d | ambiguousBoundType d _
  | duplicateContribution d _ | supertypeNotDeclared d _ | missingFactory d
  | multipleFactories d _ | factoryFunctionCount d _ | factoryReturnType d _ _
  | factoryNotNested d | subcomponentCycle d _ | unsupportedLegacyParameter d _ _
  | unknownDeclaration d | duplicateDeclaration d => some d
  | fileAlreadyExists _ => none

/-- The complaint that an annotation stands on the wrong kind of declaration. -/
private def misplaced (declaration annotationType : Name) (place : String) : String :=
  declaration.text ++ " is annotated with @" ++ annotationType.text ++
    ", which is only allowed on " ++ place

/-- The annotations that left their scope out, as an addition to a message. -/
private def omissions (annotations : List Name) : String :=
  String.join (annotations.map fun a => "; @" ++ a.text ++ " omits scope")

/-- An error in words. -/
def message : MergeError → String
  | notPublic d => d.text ++ " must be public to be contributed"
  | notInterface d a => misplaced d a "interfaces"
  | notAClass d a => misplaced d a "classes and objects"
  | notAnnotationClass d a => misplaced d a "annotation classes"
  | notInterfaceOrAbstract d =>
    "contributed subcomponent " ++ d.text ++ " must be an interface or an abstract class"
  | missingScope d =>
    "couldn't find a scope for " ++ d.text ++ ": add a scope argument or a scope annotation"
  | noScopeArgument d a => "@" ++ a.text ++ " on " ++ d.text ++ " requires a scope argument"
  | conflictingScopes d scopes omitted =>
    d.text ++ " declares conflicting scopes: " ++ Name.commaSeparated scopes ++ omissions omitted
  | scopeMismatch d explicit classLevel =>
    d.text ++ " uses scope " ++ explicit.text ++
      " in its contribution annotations, but its scope annotation uses " ++ classLevel.text
  | redundantExplicitScope d scope =>
    d.text ++ " repeats scope " ++ scope.text ++
      " already given by its scope annotation; remove the explicit scope argument"
  | noBoundType d => d.text ++ " has no super type to bind; declare a boundType"
  | ambiguousBoundType d candidates =>
    d.text ++ " has multiple super types (" ++ Name.commaSeparated candidates ++
      "); declare which one to bind with boundType"
  | duplicateContribution d bound =>
    d.text ++ " contributes a binding for " ++ bound.text ++ " more than once"
  | supertypeNotDeclared d expected =>
    d.text ++ " is merged with @Component but doesn't extend " ++ expected.text ++ "; add " ++
      expected.text ++ " as a super type"
  | missingFactory s =>
    "contributed subcomponent " ++ s.text ++
      " must declare a nested factory interface annotated with @ContributesSubcomponent.Factory"
  | multipleFactories s factories =>
    "contributed subcomponent " ++ s.text ++ " declares more than one factory: " ++
      Name.commaSeparated factories
  | factoryFunctionCount f count =>
    "factory " ++ f.text ++ " must declare exactly one abstract function, found " ++ count.repr
  | factoryReturnType f expected actual =>
    "the function of factory " ++ f.text ++ " must return " ++ expected.text ++ ", found " ++
      (actual.map Name.text).getD "no return type"
  | factoryNotNested f =>
    "factory " ++ f.text ++ " must be nested inside a class annotated with @ContributesSubcomponent"
  | subcomponentCycle s lineage =>
    "subcomponent " ++ s.text ++ " is contributed to itself through " ++
      Name.commaSeparated lineage
  | unsupportedLegacyParameter d a parameter =>
    "@" ++ a.text ++ " on " ++ d.text ++ " uses unsupported parameter '" ++ parameter ++ "'"
  | unknownDeclaration name => "declaration not found: " ++ name.text
  | duplicateDeclaration name => "declaration defined twice: " ++ name.text
  | fileAlreadyExists id => "file already exists: " ++ id.text

end MergeError

end ScopeMerge
