import Sm83.Byte
import Sm83.Text
import Sm83.Fault
import Sm83.Flags
import Sm83.Register.Basic
import Sm83.Register.Pair
import Sm83.Registers
import Sm83.Arithmetic
import Sm83.Shift
import Sm83.Bit
import Sm83.Operation.Basic
import Sm83.Operation.Perform
import Sm83.Operation.Text
import Sm83.Opcode.Fields
import Sm83.Opcode.Basic
import Sm83.Opcode.Coverage
import Sm83.Cpu.Basic
import Sm83.Trace
import Sm83.Bus
import Sm83.Memory.Basic
import Sm83.Memory.Stretch
import Sm83.Cpu.Step
import Sm83.Cpu.Run
import Sm83.Update
import Sm83.Assembly
import Sm83.Monitor.Command
import Sm83.Monitor.Session
import Sm83.Proofs.Advance
import Sm83.Proofs.Layout.Basic
import Sm83.Proofs.Gaps
import Sm83.Proofs.Lockstep
import Sm83.Proofs.Requests
import Sm83.Proofs.Placement
import Sm83.Proofs.Fetch
import Sm83.Proofs.Execution
import Sm83.Proofs.Cycles
import Sm83.Proofs.Dataflow.Basic
import Sm83.Proofs.Footprint
import Sm83.Proofs.LastWriter
import Sm83.Proofs.Journal
import Sm83.Proofs.Relocation
import Sm83.Proofs.Splitting
import Sm83.Proofs.Recurrence
import Sm83.Proofs.StraightLine
import Sm83.Proofs.Dataflow.Frame
import Sm83.Proofs.Dataflow.DeadFlags
import Sm83.Proofs.Dataflow.Reordering
import Sm83.Proofs.Layout.Agreement
import Sm83.Proofs.Bank.Basic
import Sm83.Proofs.Bank.Agreement
import Sm83.Proofs.Carried
import Sm83.Proofs.Arithmetic.Bytes
import Sm83.Proofs.Arithmetic.Words
import Sm83.Proofs.Chain.Basic
import Sm83.Proofs.Chain.Binary
import Sm83.Proofs.Chain.Decimal
import Sm83.Proofs.Chain.Shifting
import Sm83.Proofs.Arithmetic.Shifts
import Sm83.Proofs.Bits
import Sm83.Proofs.Blocks
import Sm83.Proofs.Arithmetic.Counting
import Sm83.Proofs.Messages
import Sm83.Proofs.Names
import Sm83.Proofs.Assignments
import Sm83.Proofs.NamedAccess
import Sm83.Proofs.Bank.Restoring
