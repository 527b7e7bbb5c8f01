/-!
# The processors

A compilation runs six processors, once per round and always in the same order: five record
contributions, the last one merges them. This module only names them. An option under a
processor's identity can switch the processor off.
-/

namespace ScopeMerge

/-- The processors. -/
inductive Processor where
  | contributingAnnotations
  | contributesTo
  | contributesBinding
  | contributesSubcomponent
  | legacy
  | mergeComponent
deriving DecidableEq, Inhabited

namespace Processor

/-- All processors, in the order in which they run. -/
def all : List Processor :=
  [contributingAnnotations, contributesTo, contributesBinding, contributesSubcomponent, legacy,
    mergeComponent]

/-- The identity that options refer to a processor by. -/
def id : Processor → String
  | contributingAnnotations => "scopeweave.ContributingAnnotationProcessor"
  | contributesTo => "scopeweave.ContributesToProcessor"
  | contributesBinding => "scopeweave.ContributesBindingProcessor"
  | contributesSubcomponent => "scopeweave.ContributesSubcomponentProcessor"
  | legacy => "scopeweave.CompatProcessor"
  | mergeComponent => "scopeweave.MergeComponentProcessor"

/-- The processor with an identity. -/
def ofId? (identity : String) : Option Processor :=
  all.find? (·.id = identity)

end Processor

end ScopeMerge
