import JvmEmit.Class.Declaration
import JvmEmit.Class.Draft
import JvmEmit.Class.Finished
import JvmEmit.ClassFileVersion
import JvmEmit.Code.Instruction
import JvmEmit.Error
import JvmEmit.Method.Draft
import JvmEmit.Modifiers
import JvmEmit.Name.Lemmas
import JvmEmit.Name.Numbered
import JvmEmit.Name.Supply
import JvmEmit.Outcome
import JvmEmit.Proofs.Name.Decoding
import JvmEmit.Proofs.Name.LeastFree
import JvmEmit.Proofs.Name.Runs
import JvmEmit.Proofs.Name.Search
import JvmEmit.Proofs.Scope.Nesting
import JvmEmit.Proofs.Slot.Layout
import JvmEmit.Proofs.Slot.Runs
import JvmEmit.Scope.Lemmas
import JvmEmit.Scope.Lifecycle
import JvmEmit.Scope.Nested
import JvmEmit.Slot.Table
import JvmEmit.Slot.Variable
import JvmEmit.Types.ClassName
import JvmEmit.Types.JvmType
import JvmEmit.Types.StackKind
import JvmEmit.Proofs.Scope.Mirror
import JvmEmit.Proofs.Method.Programs
import JvmEmit.Proofs.Method.Runs
import JvmEmit.Proofs.Method.Lockstep
import JvmEmit.Proofs.Method.Calls
import JvmEmit.Proofs.Method.Obstacles
import JvmEmit.Proofs.Slot.Names
import JvmEmit.Proofs.Slot.Order
import JvmEmit.Proofs.Method.Declarations
import JvmEmit.Proofs.Method.BlockCode
import JvmEmit.Proofs.Method.OwnLabels
import JvmEmit.Proofs.Method.DebugRanges
import JvmEmit.Proofs.Method.OpenBlocks
import JvmEmit.Proofs.Method.Namings
import JvmEmit.Proofs.Class.Programs
import JvmEmit.Proofs.Class.Runs
import JvmEmit.Proofs.Method.Completion
import JvmEmit.Proofs.Class.Namings
import JvmEmit.Proofs.Class.Failures
import JvmEmit.Proofs.Scope.Held
import JvmEmit.Proofs.Class.LostMethods
import JvmEmit.Proofs.Slot.Frames
import JvmEmit.Proofs.Slot.Roles
import JvmEmit.Proofs.Slot.Summaries
import JvmEmit.Proofs.Slot.Resolution
import JvmEmit.Proofs.Slot.Stability
import JvmEmit.Proofs.Method.SignatureFrame
import JvmEmit.Proofs.Scope.Runs
import JvmEmit.Proofs.Class.Members
import JvmEmit.Proofs.Method.CodeInBlocks
import JvmEmit.Proofs.Class.Independence
import JvmEmit.Proofs.Scope.Descendants
import JvmEmit.Proofs.Slot.Indices
import JvmEmit.Proofs.Slot.Acceptance
import JvmEmit.Proofs.Class.Frozen
import JvmEmit.Proofs.Class.Completable
import JvmEmit.Proofs.Slot.HighWater
import JvmEmit.Proofs.Method.BodyStart
import JvmEmit.Proofs.Method.PlacedLabels
import JvmEmit.Proofs.Method.DebugEntries
import JvmEmit.Proofs.Class.Temporaries
import JvmEmit.Proofs.Scope.Levels
import JvmEmit.Proofs.Name.Counting
import JvmEmit.Proofs.Name.Growth
import JvmEmit.Proofs.Slot.Counters
import JvmEmit.Proofs.Scope.Extension
import JvmEmit.Proofs.Scope.PathNames
import JvmEmit.Proofs.Types.SourceNames
import JvmEmit.Proofs.Name.RoundTrip
import JvmEmit.Proofs.Name.Stale
