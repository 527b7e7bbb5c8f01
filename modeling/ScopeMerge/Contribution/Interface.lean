import ScopeMerge.Contribution.Lookup

/-!
# Contributed interfaces

An interface is contributed as it is: its lookup extends it, so that whatever extends the lookup
has all its members. The lookup is named after the interface.
-/

namespace ScopeMerge.Contribution

/-- The lookup for a contributed interface. The annotation is the one that contributes it, native
or legacy. -/
def interfaceLookup (table : SymbolTable) (annotationType : Name) (d : Declaration) :
    Except MergeError Declaration := do
  requirePublic d
  refuseUnless d.isInterface (.notInterface d.name annotationType)
  let scope ← Scope.resolve table d
  return { emptyLookup d.name.flatten d scope with supertypes := [d.name] }

/-- The lookups for a contributed interface. -/
def interfaceLookups (table : SymbolTable) (annotationType : Name) (d : Declaration) : Outcome :=
  (interfaceLookup table annotationType d).map ([·])

end ScopeMerge.Contribution
