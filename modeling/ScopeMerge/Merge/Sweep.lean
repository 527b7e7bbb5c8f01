import ScopeMerge.Merge.FinalComponent
import ScopeMerge.Merge.Request
import ScopeMerge.Registry

/-!
# The merge sweep

Merge requests are answered all together or not at all. In every round the requests that were
delivered and not yet processed are looked at once:

* while a new file of the round declares a contribution, every one of them is put off to the next
  round, because the contribution's lookup is not visible yet;
* otherwise every one of them is *finalized* and counts as processed, whether it succeeds or not.

The names of processed requests outlive the round, so no request is finalized twice.
-/

namespace ScopeMerge

/-- The merge requests already finalized in a compilation, each once. -/
structure ProcessedRequests where
  names : List Name := []
deriving DecidableEq, Inhabited

namespace ProcessedRequests

/-- Whether a request was finalized. -/
def contains (processed : ProcessedRequests) (name : Name) : Bool :=
  processed.names.contains name

/-- Counts a request as finalized. -/
def insert (processed : ProcessedRequests) (name : Name) : ProcessedRequests :=
  if processed.contains name then processed else { names := processed.names ++ [name] }

end ProcessedRequests

namespace Merge

/-- The interface that a request's merge results in. -/
def aggregate (request : MergeRequest) (contributions : List Declaration)
    (factories : List Name) : Declaration :=
  { Declaration.topLevel .interface request.declaration.package request.aggregate.simpleName with
    supertypes := contributions.map (·.name) ++ factories
    origin := some request.declaration.name }

/-- Answers one merge request: the aggregate, followed by all final components under it. -/
def finalize (table : SymbolTable) (d : Declaration) : Except MergeError SourceFile := do
  let request ← MergeRequest.parse table d
  let contributions := select table request.scope.marker request.exclusions
  let finals ← FinalComponents.generate table d.package [] d.name contributions
  return .generated (aggregate request contributions finals.factories) finals.declarations

/-! ## One round -/

/-- A request that was finalized, with the result. -/
structure Finalized where
  request : Name
  result : Except MergeError SourceFile

/-- What one round does with the merge requests it sees. -/
structure Sweep where
  /-- Requests put off to the next round. -/
  pending : List Name := []
  /-- Requests finalized in this round. -/
  finalized : List Finalized := []

/-- The first of the declarations with each name. -/
def firstOfEachName : List Declaration → List Declaration
  | [] => []
  | d :: rest => d :: (firstOfEachName rest).filter (·.name ≠ d.name)

/-- The requests of the round that are not processed yet, each once. -/
def outstanding (table : SymbolTable) (processed : ProcessedRequests) : List Declaration :=
  (firstOfEachName (table.delivered Vocabulary.mergeComponent)).filter fun d =>
    !processed.contains d.name

/-- Whether a new file of the round declares a contribution. -/
def hasNewContributions (registry : Registry) (table : SymbolTable) : Bool :=
  table.introducedDeclarations.any registry.isContribution

/-- What the round does with its requests, and the requests processed afterwards. -/
def sweep (registry : Registry) (table : SymbolTable) (processed : ProcessedRequests) :
    Sweep × ProcessedRequests :=
  let requests := outstanding table processed
  if hasNewContributions registry table then
    ({ pending := requests.map (·.name) }, processed)
  else
    ({ finalized := requests.map fun d => { request := d.name, result := finalize table d } },
      requests.foldl (fun done d => done.insert d.name) processed)

end Merge

end ScopeMerge
