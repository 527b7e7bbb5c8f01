import ScopeMerge.Builtin
import ScopeMerge.Checking
import ScopeMerge.CommandLine.Grammar
import ScopeMerge.CommandLine.Invocation
import ScopeMerge.CommandLine.Run
import ScopeMerge.CommandLine.Usage
import ScopeMerge.Config
import ScopeMerge.Config.Environment
import ScopeMerge.Config.Environment.Value
import ScopeMerge.Config.Location
import ScopeMerge.Config.Setting
import ScopeMerge.Contribution.Binding
import ScopeMerge.Contribution.Interface
import ScopeMerge.Contribution.Legacy
import ScopeMerge.Contribution.Lookup
import ScopeMerge.Contribution.Marker
import ScopeMerge.Contribution.Subcomponent
import ScopeMerge.Decimal.Binary64
import ScopeMerge.Declaration
import ScopeMerge.Diagnostic
import ScopeMerge.FileTree
import ScopeMerge.Json
import ScopeMerge.Json.Held
import ScopeMerge.Json.Printer
import ScopeMerge.Json.Reader
import ScopeMerge.Json.Token
import ScopeMerge.Main
import ScopeMerge.Merge.FinalComponent
import ScopeMerge.Merge.Request
import ScopeMerge.Merge.Selection
import ScopeMerge.Merge.Sweep
import ScopeMerge.MergeError
import ScopeMerge.Name
import ScopeMerge.Options
import ScopeMerge.Output
import ScopeMerge.Processor
import ScopeMerge.Proofs.Accepting
import ScopeMerge.Proofs.Aggregates
import ScopeMerge.Proofs.Agreement
import ScopeMerge.Proofs.Answering
import ScopeMerge.Proofs.Arguments
import ScopeMerge.Proofs.Bindings
import ScopeMerge.Proofs.CallStyles
import ScopeMerge.Proofs.Closed
import ScopeMerge.Proofs.Correspondence
import ScopeMerge.Proofs.Cycles
import ScopeMerge.Proofs.Deeds
import ScopeMerge.Proofs.Delivery
import ScopeMerge.Proofs.Disabling
import ScopeMerge.Proofs.Distinctness
import ScopeMerge.Proofs.Duplicates
import ScopeMerge.Proofs.Duration
import ScopeMerge.Proofs.Emission
import ScopeMerge.Proofs.Extension
import ScopeMerge.Proofs.Generated
import ScopeMerge.Proofs.Growth
import ScopeMerge.Proofs.History
import ScopeMerge.Proofs.Hosting
import ScopeMerge.Proofs.InputOrder
import ScopeMerge.Proofs.Isolation
import ScopeMerge.Proofs.Joint
import ScopeMerge.Proofs.Learning
import ScopeMerge.Proofs.Levels
import ScopeMerge.Proofs.ListedNames
import ScopeMerge.Proofs.Loading
import ScopeMerge.Proofs.Lookup
import ScopeMerge.Proofs.Naming
import ScopeMerge.Proofs.Nesting
import ScopeMerge.Proofs.Origins
import ScopeMerge.Proofs.Outcome
import ScopeMerge.Proofs.Plain
import ScopeMerge.Proofs.Providers
import ScopeMerge.Proofs.Rearranging
import ScopeMerge.Proofs.Recording
import ScopeMerge.Proofs.Refusals
import ScopeMerge.Proofs.Reporting
import ScopeMerge.Proofs.Reuse
import ScopeMerge.Proofs.Rewording
import ScopeMerge.Proofs.Rounds
import ScopeMerge.Proofs.Routing
import ScopeMerge.Proofs.RuntimeScope
import ScopeMerge.Proofs.ScopeRule
import ScopeMerge.Proofs.Scoping
import ScopeMerge.Proofs.Selection
import ScopeMerge.Proofs.Separate
import ScopeMerge.Proofs.Spelling
import ScopeMerge.Proofs.Strays
import ScopeMerge.Proofs.Termination
import ScopeMerge.Proofs.Translation
import ScopeMerge.Proofs.UnitText
import ScopeMerge.Proofs.Waiting
import ScopeMerge.Proofs.Wiring
import ScopeMerge.Proofs.Writing
import ScopeMerge.Registry
import ScopeMerge.Round
import ScopeMerge.Scope
import ScopeMerge.Session
import ScopeMerge.SymbolTable
import ScopeMerge.Text.LetterCase
import ScopeMerge.Text.Pieces
import ScopeMerge.Text.Quoted
import ScopeMerge.Toml
import ScopeMerge.Toml.Reader
import ScopeMerge.UnitFormat
import ScopeMerge.Vocabulary
