import TraceWeave.Build
import TraceWeave.Command.Arguments
import TraceWeave.Command.Run
import TraceWeave.Descriptor.Annotations
import TraceWeave.Descriptor.Arena
import TraceWeave.Descriptor.Codec
import TraceWeave.Descriptor.Handle
import TraceWeave.Descriptor.Keys
import TraceWeave.Descriptor.Plan
import TraceWeave.Descriptor.Snapshot
import TraceWeave.Descriptor.Store
import TraceWeave.Diagnostic
import TraceWeave.Error
import TraceWeave.Eval.Codec
import TraceWeave.Eval.Host
import TraceWeave.Eval.Interpreter
import TraceWeave.Eval.Machine
import TraceWeave.Eval.Operators
import TraceWeave.Eval.Value
import TraceWeave.Factory.Basic
import TraceWeave.Factory.Declarations
import TraceWeave.Hash.Sip
import TraceWeave.Hash.Stream
import TraceWeave.Intrinsic
import TraceWeave.Json.Basic
import TraceWeave.Json.Codec
import TraceWeave.Json.Parser
import TraceWeave.Json.Printer
import TraceWeave.Linkage
import TraceWeave.Main
import TraceWeave.NameMap
import TraceWeave.Options.Basic
import TraceWeave.Options.Codec
import TraceWeave.Options.Toml
import TraceWeave.Pass.Active
import TraceWeave.Pass.Basic
import TraceWeave.Pass.CallerCapture
import TraceWeave.Pass.Codec
import TraceWeave.Pass.Dispatch
import TraceWeave.Pass.Handlers
import TraceWeave.Pass.Instrument
import TraceWeave.Pass.LeaveReturns
import TraceWeave.Pass.Removal
import TraceWeave.Pass.Walk
import TraceWeave.Pipeline
import TraceWeave.Program.Codec.Decode
import TraceWeave.Program.Codec.Encode
import TraceWeave.Program.Codec.Index
import TraceWeave.Program.Codec.Leaf
import TraceWeave.Program.Ids
import TraceWeave.Program.Locals
import TraceWeave.Program.Lowering
import TraceWeave.Program.Nodes
import TraceWeave.Program.Render
import TraceWeave.Program.Symbols
import TraceWeave.Program.Tree
import TraceWeave.Program.Ty
import TraceWeave.Scope
import TraceWeave.Scope.Codec
import TraceWeave.Source.Cache
import TraceWeave.Source.Directory
import TraceWeave.Source.Path
import TraceWeave.Source.Position
import TraceWeave.Span
import TraceWeave.Text.Blank
import TraceWeave.Text.Escape
import TraceWeave.Text.Lines
import TraceWeave.Toml.Number
import TraceWeave.Toml.Parser
import TraceWeave.Toml.Scalar
import TraceWeave.Toml.Table
import TraceWeave.Toml.Text
import TraceWeave.TraceType
import TraceWeave.Proofs.Descriptor.Growth
import TraceWeave.Proofs.Program.Calls
import TraceWeave.Proofs.Program.Index
import TraceWeave.Proofs.Program.Walks
import TraceWeave.Proofs.Runs.Checks
import TraceWeave.Proofs.Runs.Watch
import TraceWeave.Proofs.Tracing.Activations
import TraceWeave.Proofs.Tracing.Meaning
import TraceWeave.Proofs.Descriptor.Slots
import TraceWeave.Proofs.Descriptor.Requests
import TraceWeave.Proofs.Descriptor.Builders
import TraceWeave.Proofs.Pipeline.Descriptors
import TraceWeave.Proofs.Removal.Meaning
import TraceWeave.Proofs.Tracing.CallSites
import TraceWeave.Proofs.Capture.ByHand
import TraceWeave.Proofs.Descriptor.Agreement
import TraceWeave.Proofs.Descriptor.Alone
import TraceWeave.Proofs.Descriptor.Deadlock
import TraceWeave.Proofs.Pipeline.Failures
import TraceWeave.Proofs.Pipeline.Landmarks
import TraceWeave.Proofs.Program.Visits
import TraceWeave.Proofs.Pipeline.Hooks
import TraceWeave.Proofs.Snapshot.Carried
import TraceWeave.Proofs.Snapshot.Dispatched
import TraceWeave.Proofs.Snapshot.Bound
import TraceWeave.Proofs.Snapshot.Kept
import TraceWeave.Proofs.Snapshot.Recorded
import TraceWeave.Proofs.Snapshot.Meaning
import TraceWeave.Proofs.Pipeline.Retained
import TraceWeave.Proofs.Program.RoundTrip
import TraceWeave.Proofs.Program.Nesting
import TraceWeave.Proofs.Program.Marks
import TraceWeave.Proofs.Pipeline.Untouched
import TraceWeave.Proofs.Pipeline.Marks
import TraceWeave.Proofs.Pipeline.Intrinsics
import TraceWeave.Proofs.Pipeline.Filled
import TraceWeave.Proofs.Pipeline.Inherited
import TraceWeave.Proofs.Pipeline.Identities
import TraceWeave.Proofs.Pipeline.Settled
import TraceWeave.Proofs.Pipeline.Rerun
import TraceWeave.Proofs.Source.Offsets
import TraceWeave.Proofs.Program.Rewrites
import TraceWeave.Proofs.Pipeline.Quiet
import TraceWeave.Proofs.Factory.Renaming
import TraceWeave.Proofs.Factory.Descriptions
import TraceWeave.Proofs.Factory.Obtained
import TraceWeave.Proofs.Factory.Identity
import TraceWeave.Proofs.Factory.Order
import TraceWeave.Proofs.Program.Holding
import TraceWeave.Proofs.Factory.Members
import TraceWeave.Proofs.Factory.Failures
import TraceWeave.Proofs.Program.Rebuilding
import TraceWeave.Proofs.Program.Watching
import TraceWeave.Proofs.Dispatch.Requests
import TraceWeave.Proofs.Dispatch.Replaced
import TraceWeave.Proofs.Removal.Activity
import TraceWeave.Proofs.Removal.Searched
import TraceWeave.Proofs.Removal.Without
import TraceWeave.Proofs.Removal.Accounted
import TraceWeave.Proofs.Removal.Exact
import TraceWeave.Proofs.Capture.Stripped
import TraceWeave.Proofs.Capture.Relinked
import TraceWeave.Proofs.Capture.Modes
import TraceWeave.Proofs.Capture.Gaps
import TraceWeave.Proofs.Program.Accounts
import TraceWeave.Proofs.Tracing.Inserting
import TraceWeave.Proofs.Tracing.Lost
import TraceWeave.Proofs.Tracing.Reads
import TraceWeave.Proofs.Tracing.Temporaries
import TraceWeave.Proofs.Snapshot.Upkeep
import TraceWeave.Proofs.Snapshot.Exactly
import TraceWeave.Proofs.Snapshot.Defaults
import TraceWeave.Proofs.Capture.Replayed
import TraceWeave.Proofs.Program.Enclosing
import TraceWeave.Proofs.Factory.Settling
import TraceWeave.Proofs.Dispatch.Hashes
import TraceWeave.Proofs.Runs.Frames
import TraceWeave.Proofs.Program.Loops
import TraceWeave.Proofs.Runs.Endings
import TraceWeave.Proofs.Source.Positions
import TraceWeave.Proofs.Factory.Annotations
import TraceWeave.Proofs.Hash.Prefixes
import TraceWeave.Proofs.Program.Ancestors
import TraceWeave.Proofs.Runs.Numbers
import TraceWeave.Proofs.Snapshot.Patches
