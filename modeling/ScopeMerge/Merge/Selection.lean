import ScopeMerge.Contribution.Lookup

/-!
# Selecting the contributions of a merge

A lookup links to the declaration it was generated for, and that may be a lookup again. The
*origin chain* of a lookup is the lookup, its origin, and so on for as long as the last one found
is a lookup whose origin is visible. Links may run in a circle; a chain stops before it would
repeat itself.

A lookup belongs to the merge of a scope when some declaration on its chain has that scope. It is
left out when some declaration on its chain is excluded, or when it stands for a subcomponent
factory and the declaration around the factory is excluded.
-/

namespace ScopeMerge

namespace SymbolTable

/-! ## Counting what has not been seen

A walk over visible declarations that never visits a name twice ends, because the declarations
with a name not yet seen become fewer. -/

/-- How many declarations of the table have a name that is not in a list. -/
def unseen (table : SymbolTable) (names : List Name) : Nat :=
  table.declarations.countP fun d => decide (d.name ∉ names)

theorem lastNamed?_eq_some {name : Name} {ds : List Declaration} {d : Declaration}
    (h : lastNamed? name ds = some d) : d ∈ ds ∧ d.name = name := by
  induction ds with
  | nil => simp [lastNamed?] at h
  | cons e rest ih =>
    simp only [lastNamed?] at h
    cases hrest : lastNamed? name rest with
    | some found =>
      rw [hrest] at h
      obtain ⟨hmem, hname⟩ := ih (by simpa [hrest] using h)
      exact ⟨List.mem_cons_of_mem _ hmem, hname⟩
    | none =>
      rw [hrest] at h
      by_cases hname : e.name = name
      · simp [hname] at h
        subst h
        exact ⟨List.mem_cons_self, hname⟩
      · simp [hname] at h

theorem find?_eq_some {table : SymbolTable} {name : Name} {d : Declaration}
    (h : table.find? name = some d) : d ∈ table.declarations ∧ d.name = name := by
  obtain ⟨entry, hentry, hd⟩ := List.exists_of_findSome?_eq_some h
  obtain ⟨hmem, hname⟩ := lastNamed?_eq_some hd
  exact ⟨List.mem_flatMap.mpr ⟨entry, hentry, hmem⟩, hname⟩

theorem countP_lt {α : Type} {p q : α → Bool} {l : List α} {x : α}
    (hqp : ∀ y, q y = true → p y = true) (hx : x ∈ l) (hpx : p x = true) (hqx : q x = false) :
    l.countP q < l.countP p := by
  induction l with
  | nil => simp at hx
  | cons y rest ih =>
    have hle : rest.countP q ≤ rest.countP p := List.countP_mono_left fun z _ => hqp z
    rw [List.countP_cons, List.countP_cons]
    rcases List.mem_cons.mp hx with rfl | hmem
    · simp [hpx, hqx]
      omega
    · have := ih hmem
      by_cases hq : q y = true
      · simp [hq, hqp y hq]
        omega
      · by_cases hp : p y = true <;> simp [hq, hp] <;> omega

/-- Seeing one more visible name leaves fewer unseen. -/
theorem unseen_lt {table : SymbolTable} {names more : List Name} {d : Declaration}
    (hd : d ∈ table.declarations) (hnew : d.name ∉ names) (hmore : d.name ∈ more)
    (hsub : ∀ n ∈ names, n ∈ more) : table.unseen more < table.unseen names := by
  refine countP_lt (fun e he => ?_) hd ?_ ?_
  · simp only [decide_eq_true_eq] at he ⊢
    exact fun hmem => he (hsub _ hmem)
  · simpa using hnew
  · simpa using hmore

end SymbolTable

namespace Merge

/-! ## Origin chains -/

/-- The visible origin of a lookup. -/
def origin? (table : SymbolTable) (d : Declaration) : Option Declaration :=
  if d.isLookup then d.origin.bind table.find? else none

theorem mem_of_origin? {table : SymbolTable} {d origin : Declaration}
    (h : origin? table d = some origin) : origin ∈ table.declarations := by
  unfold origin? at h
  split at h
  · obtain ⟨name, _, hfind⟩ := Option.bind_eq_some_iff.mp h
    exact (SymbolTable.find?_eq_some hfind).1
  · simp at h

/-- The rest of an origin chain from its current end, without the names already on it. -/
def chainFrom (table : SymbolTable) (visited : List Name) (current : Declaration) :
    List Declaration :=
  match _ : origin? table current with
  | none => [current]
  | some origin =>
    if _ : origin.name ∈ visited then [current]
    else current :: chainFrom table (origin.name :: visited) origin
termination_by table.unseen visited
decreasing_by
  exact SymbolTable.unseen_lt (mem_of_origin? ‹_›) ‹_› List.mem_cons_self
    fun _ hn => List.mem_cons_of_mem _ hn

/-- A declaration followed by its origins, as far as they lead. -/
def originChain (table : SymbolTable) (lookup : Declaration) : List Declaration :=
  chainFrom table [lookup.name] lookup

/-! ## Scopes and exclusions -/

/-- Every visible lookup, ordered by name. -/
def lookups (table : SymbolTable) : List Declaration :=
  (table.inNamespace Vocabulary.lookupNamespace).filter (·.isLookup)

/-- The scope of a declaration on a chain: what a lookup records, or else what the declaration
states. -/
def chainScope? (table : SymbolTable) (d : Declaration) : Option Name :=
  match d.annotation? Vocabulary.contributionScope with
  | some usage => Scope.ofArgument? table usage
  | none => (Scope.resolve? table d).map (·.marker)

/-- Whether a chain leads to a scope. -/
def reachesScope (table : SymbolTable) (scope : Name) (chain : List Declaration) : Bool :=
  chain.any fun d => chainScope? table d == some scope

/-- Whether a lookup stands for a factory in an excluded subcomponent. -/
def inExcludedSubcomponent (exclusions : List Name) (lookup : Declaration)
    (chain : List Declaration) : Bool :=
  lookup.isSubcomponentLookup &&
    ((chain.getLast?.bind (·.parent)).any exclusions.contains)

/-- Whether a lookup with its chain belongs to a merge. -/
def selects (table : SymbolTable) (scope : Name) (exclusions : List Name)
    (lookup : Declaration) : Bool :=
  let chain := originChain table lookup
  reachesScope table scope chain && !chain.any (fun d => exclusions.contains d.name) &&
    !inExcludedSubcomponent exclusions lookup chain

/-- The lookups that belong to the merge of a scope, ordered by name. -/
def select (table : SymbolTable) (scope : Name) (exclusions : List Name) : List Declaration :=
  (lookups table).filter (selects table scope exclusions)

end Merge

end ScopeMerge
