import Idax.Error
import Idax.Library.Machine
import Idax.Graph.Impl
import Idax.Graph.Lemmas.Basic
import Idax.Graph.Edges
import Idax.Graph.Groups
import Idax.Library.PostOrder
import Idax.Types.Formatter
import Idax.Types.Lemmas.Walk
import Idax.Types.Lemmas.Order
import Idax.Types.Coverage
import Idax.Types.DeclarationOrder
import Idax.Types.Trim
import Idax.Data.Database
import Idax.Data.TypeInfo
import Idax.Data.Typed
import Idax.Data.Lemmas.TypeInfo
import Idax.Data.Lemmas.Typed
import Idax.Data.RoundTrip
import Idax.Data.Lossless
import Idax.Events.Registry
import Idax.Library.LiveLoop
import Idax.Events.Dispatch
import Idax.Events.Lemmas.Dispatch
import Idax.Events.Reentrancy
import Idax.Library.VaList
import Idax.Listeners.Debugger
import Idax.Listeners.Arguments
import Idax.Microcode.Build
import Idax.Microcode.Parse
import Idax.Microcode.RoundTrip
import Idax.Listeners.Lemmas.Listener
import Idax.Ui.Subscriptions
import Idax.Ui.History
import Idax.Ui.Routing
import Idax.Decompiler.Lifecycle
import Idax.Decompiler.Readiness
import Idax.Decompiler.Subscriptions
import Idax.Library.Subscriptions
import Idax.Registries
import Idax.ScopedGuards
import Idax.Library.Snapshot
import Idax.Ui.Removal
import Idax.Finality
import Idax.Comment.Extra
import Idax.Comment.Lemmas.Extra
import Idax.Comment.Refinement
import Idax.Comment.Separation
import Idax.Library.LimitedSearch
import Idax.Types.Lemmas.Limited
import Idax.Decompiler.Pseudocode
import Idax.Lines.Tags
import Idax.Types.DepthLimit
import Idax.Lines.Scanner
import Idax.Lines.Views
import Idax.Ui.Handles
import Idax.Ui.WidgetIdentity
import Idax.Library.Glob
import Idax.Database.Wildcard
import Idax.Types.TrimmedLayout
import Idax.Types.Graph
import Idax.Types.Lemmas.Graph
import Idax.Types.GraphClosure
import Idax.Data.PartialWrite
import Idax.Library.Listing
import Idax.Database.PluginPolicy
import Idax.Database.PolicyMirror
import Idax.Library.LinkedNodes
import Idax.Microcode.Value
import Idax.Microcode.Argument
import Idax.Microcode.CallOptions
import Idax.Microcode.Context
import Idax.Microcode.HelperCalls
import Idax.Microcode.Lemmas.Context
import Idax.Microcode.Batch
import Idax.Microcode.FailedEmission
import Idax.Microcode.Emitter
import Idax.Microcode.Lemmas.Emitter
import Idax.Microcode.LastEmitted
import Idax.Microcode.NestingLimit
import Idax.Library.Packing
import Idax.Microcode.Lemmas.Argument
import Idax.Microcode.Lemmas.AutoStack
import Idax.Microcode.StackLayout
import Idax.Address.Predicates
import Idax.Address.RangeIteration
import Idax.Library.Enumeration
import Idax.Graph.Visibility
import Idax.Library.Worklist
import Idax.Graph.Paths
import Idax.Library.Duplicates
import Idax.Function.Xrefs
import Idax.Function.CallRelation
import Idax.Types.Retention
import Idax.Fixup.Descriptor
import Idax.Fixup.RoundTrip
import Idax.Data.Lemmas.Blocks
import Idax.Data.Trace
import Idax.Data.Lemmas.Outcomes
import Idax.Data.Addressing
import Idax.Data.Lemmas.Scalars
import Idax.Decompiler.Ctree
import Idax.Decompiler.Operands
import Idax.Decompiler.LvarReplay
import Idax.Decompiler.LvarSettings
import Idax.Library.DotLexer
import Idax.Library.DotParser
import Idax.Library.HtmlLabel
import Idax.Types.GraphText
import Idax.Library.DotDrawing
import Idax.Types.Lemmas.GraphText
import Idax.Types.Lemmas.GraphTable
import Idax.Types.GraphDenotation
import Idax.Library.Hex
import Idax.Lines.AddrTag
import Idax.Lines.AddrTagCodec
import Idax.Decompiler.AddressMap
import Idax.Library.RangeTable
import Idax.Segment.Resize
import Idax.Storage.Node
import Idax.Storage.ReadBack
import Idax.Debugger.Appcall
import Idax.Ui.TimerTokens
import Idax.Library.Pimpl
import Idax.Types.TypeInfo
import Idax.Types.TypeInfoSafety
import Idax.Library.FormMarkup
import Idax.Library.FormPieces
import Idax.Ui.FormAlignment
import Idax.Library.Ownership
import Idax.Shim.ErrorState
import Idax.Rust.LastError
import Idax.Shim.TypedValue
import Idax.Shim.Lemmas.TypedValue
import Idax.Rust.TypedValue
import Idax.Rust.TypedValueSession
import Idax.Shim.MicrocodeInstruction
import Idax.Rust.MicrocodeSession
import Idax.Library.Contexts
import Idax.Rust.Callbacks
import Idax.Decompiler.ReferencedTypes
import Idax.Decompiler.ReferencesExact
import Idax.Library.Numeral
import Idax.Processor.OutputContext
import Idax.Processor.Immediates
import Idax.Rust.OutputContext
import Idax.Rust.OutputAgreement
import Idax.Library.SharedPtr
import Idax.Rust.Executors
import Idax.Jbc.Instruction
import Idax.Jbc.Processor
import Idax.Jbc.Cache
