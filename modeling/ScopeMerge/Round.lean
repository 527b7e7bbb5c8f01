import ScopeMerge.Contribution.Legacy
import ScopeMerge.Contribution.Marker
import ScopeMerge.Contribution.Subcomponent
import ScopeMerge.Merge.Sweep
import ScopeMerge.Output

/-!
# One round

In a round every processor runs once over what is delivered. A processor that records
contributions takes each delivered declaration on its own: it writes what the declaration
contributes, or it records why not, and it never takes the same declaration again. One malformed
declaration says nothing about the others. The last processor runs the merge sweep and is the
only one that puts anything off.

`Workspace` is what the processors carry from round to round: which declarations each of them has
taken, the merge requests already processed, and the output.
-/

namespace ScopeMerge

/-- The declarations that each processor has taken so far. -/
structure Taken where
  annotations : List Name := []
  interfaces : List Name := []
  bindings : List Name := []
  subcomponents : List Name := []
  legacyInterfaces : List Name := []
  legacyBindings : List Name := []
  /-- In how many rounds a merge request was put off. -/
  deferredRounds : Nat := 0
deriving DecidableEq, Inhabited

/-- What lives on from round to round. -/
structure Workspace where
  taken : Taken := {}
  processed : ProcessedRequests := {}
  output : Output := {}
deriving DecidableEq, Inhabited

namespace Round

/-- Takes each declaration whose name was not taken before, in order. -/
def takeEach (act : Output → Declaration → Output) :
    List Declaration → List Name → Output → List Name × Output
  | [], taken, output => (taken, output)
  | d :: rest, taken, output =>
    if taken.contains d.name then takeEach act rest taken output
    else takeEach act rest (d.name :: taken) (act output d)

/-- Writes what a declaration contributes, or records why it contributes nothing. -/
def record (contribute : Declaration → Contribution.Outcome) (output : Output)
    (d : Declaration) : Output :=
  output.absorb (contribute d)

/-- Writes what a declaration contributes by a legacy annotation. Unsupported parameters stop it
unless the options say to ignore them. -/
def recordLegacy (options : Options) (table : SymbolTable) (legacy : LegacyAnnotation)
    (output : Output) (d : Declaration) : Output :=
  let complaints := legacy.complaints table d
  if options.ignoreUnsupportedLegacyParameters then
    (complaints.foldl (fun warned error =>
      warned.warn (error.message ++ "; ignored") (some d.name)) output).absorb
      (legacy.lookups table d)
  else if complaints.isEmpty then output.absorb (legacy.lookups table d)
  else complaints.foldl Output.report output

/-- Writes the result of a finalized request. -/
def conclude (output : Output) (finalized : Merge.Finalized) : Output :=
  match finalized.result with
  | .ok file => output.emit file
  | .error error => output.report error

end Round

open Round in
/-- Runs one processor. The names in the answer are the declarations it puts off. -/
def Processor.run (processor : Processor) (options : Options) (table : SymbolTable)
    (workspace : Workspace) : Workspace × List Name :=
  let taken := workspace.taken
  match processor with
  | .contributingAnnotations =>
    let (annotations, output) := takeEach (record Contribution.markers)
      (table.delivered Vocabulary.contributingAnnotation) taken.annotations workspace.output
    ({ workspace with taken := { taken with annotations }, output }, [])
  | .contributesTo =>
    let contribution := Vocabulary.contributesTo
    let (interfaces, output) := takeEach (record (Contribution.interfaceLookups table contribution))
      (table.delivered contribution) taken.interfaces workspace.output
    ({ workspace with taken := { taken with interfaces }, output }, [])
  | .contributesBinding =>
    let contribution := Vocabulary.contributesBinding
    let (bindings, output) := takeEach (record (Contribution.bindingLookups table contribution))
      (table.delivered contribution) taken.bindings workspace.output
    ({ workspace with taken := { taken with bindings }, output }, [])
  | .contributesSubcomponent =>
    let (contributed, output) := takeEach (record (Contribution.subcomponentLookups table))
      (table.delivered Vocabulary.contributesSubcomponent) taken.subcomponents workspace.output
    let (subcomponents, output) := takeEach (record (Contribution.strayFactoryCheck table))
      (table.delivered Vocabulary.subcomponentFactory) contributed output
    ({ workspace with taken := { taken with subcomponents }, output }, [])
  | .legacy =>
    let (legacyInterfaces, output) := takeEach (recordLegacy options table .contributesTo)
      (table.delivered Vocabulary.legacyContributesTo) taken.legacyInterfaces workspace.output
    let (legacyBindings, output) := takeEach (recordLegacy options table .contributesBinding)
      (table.delivered Vocabulary.legacyContributesBinding) taken.legacyBindings output
    ({ workspace with taken := { taken with legacyInterfaces, legacyBindings }, output }, [])
  | .mergeComponent =>
    let (sweep, processed) :=
      Merge.sweep (Registry.assemble options table) table workspace.processed
    let deferredRounds := taken.deferredRounds + if sweep.pending.isEmpty then 0 else 1
    ({ taken := { taken with deferredRounds }, processed
       output := sweep.finalized.foldl conclude workspace.output }, sweep.pending)

namespace Round

/-- The processors that the options leave switched on, in order. -/
def enabled (options : Options) : List Processor :=
  Processor.all.filter fun processor => !options.isDisabled processor.id

/-- Runs processors one after the other and gathers what they put off, each name once. -/
def runAll (options : Options) (table : SymbolTable) (processors : List Processor)
    (workspace : Workspace) : Workspace × List Name :=
  let (final, deferred) := processors.foldl (fun (current, deferred) processor =>
    let (next, more) := processor.run options table current
    (next, deferred ++ more)) (workspace, [])
  (final, deferred.eraseDups)

/-- Runs every processor that is switched on. -/
def run (options : Options) (table : SymbolTable) (workspace : Workspace) :
    Workspace × List Name :=
  runAll options table (enabled options) workspace

end Round

end ScopeMerge
