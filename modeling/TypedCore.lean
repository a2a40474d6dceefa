import TypedCore.Main
import TypedCore.CommandLine.Session
import TypedCore.Proofs.Encoding.Operands
import TypedCore.Proofs.Execution.Behaviour
import TypedCore.Proofs.Execution.Step
import TypedCore.Proofs.Exceptions.Precise
import TypedCore.Proofs.Execution.Run
import TypedCore.Proofs.Exceptions.History
import TypedCore.Proofs.Protection.Ownership
import TypedCore.Proofs.Memory.OneRam
import TypedCore.Proofs.Protection.Lockstep
import TypedCore.Proofs.Protection.Confinement
import TypedCore.Proofs.Execution.Outcome
import TypedCore.Proofs.HostFaults.Missing
import TypedCore.Proofs.Memory.Layout
import TypedCore.Proofs.HostFaults.Atomic
import TypedCore.Proofs.Encoding.Listing
import TypedCore.Proofs.Encoding.Order
import TypedCore.Proofs.Encoding.Readings
import TypedCore.Proofs.Encoding.Lines
import TypedCore.Proofs.Encoding.Agreement
import TypedCore.Proofs.Execution.Shadow
import TypedCore.Proofs.Modes.Switching
import TypedCore.Proofs.Execution.Tally
import TypedCore.Proofs.Modes.FallThrough
import TypedCore.Proofs.Execution.Marks
import TypedCore.Proofs.Memory.Routing
import TypedCore.Proofs.Memory.RoutingHistory
import TypedCore.Proofs.Memory.ByteMap
import TypedCore.Proofs.Modes.TaskView
import TypedCore.Proofs.Modes.Transparency
import TypedCore.Proofs.Notation.Tokens
import TypedCore.Proofs.Notation.Printing
import TypedCore.Proofs.Notation.Reader
import TypedCore.Proofs.Notation.Faithful
import TypedCore.Proofs.Execution.Coupling
import TypedCore.Proofs.Modes.Parity
import TypedCore.Proofs.Execution.Calls
import TypedCore.Proofs.Models.Simulation
import TypedCore.Proofs.Memory.Beside
import TypedCore.Proofs.Models.Agreement
import TypedCore.Proofs.Memory.Alone
import TypedCore.Proofs.Memory.Record
import TypedCore.Proofs.Calls.Frame
import TypedCore.Proofs.Calls.PassThrough
import TypedCore.Proofs.Execution.Tracing
import TypedCore.Proofs.Calls.PathLoop
import TypedCore.Proofs.Calls.Endings
import TypedCore.Proofs.Calls.Returns
import TypedCore.Proofs.Lanes.Layout
import TypedCore.Proofs.Lanes.FixedWidth
import TypedCore.Proofs.Lanes.Exact
import TypedCore.Proofs.Lanes.Masks
import TypedCore.Proofs.Lanes.Conditions
import TypedCore.Proofs.Lanes.CompactAdd
import TypedCore.Proofs.Execution.FrameAccess
import TypedCore.Proofs.Calls.Reading
import TypedCore.Proofs.Floats.HalfFields
import TypedCore.Proofs.Exceptions.Classified
import TypedCore.Proofs.Execution.Completed
import TypedCore.Proofs.Execution.StoreLoad
import TypedCore.Proofs.Execution.TypeTransfer
import TypedCore.Proofs.Programs.Disassembly
import TypedCore.Proofs.Programs.Overlay
import TypedCore.Proofs.Programs.ArgumentVector
import TypedCore.Proofs.Modes.Branching
import TypedCore.Proofs.Memory.ConsoleQueue
import TypedCore.Proofs.Execution.Counters
import TypedCore.Proofs.Memory.ExitRequest
import TypedCore.Proofs.Memory.BulkLoad
