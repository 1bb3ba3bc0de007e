import Sm83.Cpu.Step

/-! # Assembly

Instructions as an operation with its immediate value, and their bytes: the opcode, then the
immediate value with its lower byte first. Main statement: an instruction takes as many bytes
as its operation says. -/

namespace Sm83

/-- The bytes of an immediate value, taken from a word. -/
def Immediate.bytes : Immediate → Word → List Byte
  | .absent, _ => []
  | .byte, value => [lowByte value]
  | .word, value => [lowByte value, highByte value]

@[simp] theorem Immediate.length_bytes (kind : Immediate) (value : Word) :
    (kind.bytes value).length = kind.size := by
  cases kind <;> rfl

/-- An operation with its immediate value. An operation without one ignores it. -/
structure Instruction where
  operation : Operation
  immediate : Word := 0
  deriving DecidableEq, Repr

namespace Instruction

/-- The bytes of an instruction. -/
def bytes (instruction : Instruction) : List Byte :=
  instruction.operation.opcode.bytes ++
    instruction.operation.immediate.bytes instruction.immediate

/-- The state after an instruction at the program counter. -/
def perform (instruction : Instruction) (cpu : Cpu) : Cpu :=
  cpu.perform instruction.operation instruction.immediate

end Instruction

@[simp] theorem Instruction.length_bytes (instruction : Instruction) :
    instruction.bytes.length = instruction.operation.length := by
  simp [bytes, Operation.length_opcode_add_size]

/-- The bytes of a list of instructions, one after the other. -/
def assemble (instructions : List Instruction) : List Byte :=
  instructions.flatMap Instruction.bytes

end Sm83
