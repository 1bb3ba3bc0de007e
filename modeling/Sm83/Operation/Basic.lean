import Sm83.Bit
import Sm83.Shift

/-! # Operations

What an instruction does, with the operands that its opcode fixes, how many bytes it
takes and how many cycles. Only the operands that an opcode can express exist: no
operation names the flag register, and bits are counted from 0 to 7. -/

namespace Sm83

/-- Where a byte operand comes from: a register, or the byte after the opcode. -/
inductive Source where
  | register (register : DataRegister)
  | immediate
  deriving DecidableEq, Repr

/-- The operations of the implemented instructions. -/
inductive Operation where
  | nop
  | load (destination : DataRegister) (source : Source)
  | loadPair (destination : DataPair)
  | arithmetic (op : ByteOp) (source : Source)
  | increment (register : DataRegister)
  | decrement (register : DataRegister)
  | incrementPair (pair : DataPair)
  | decrementPair (pair : DataPair)
  | addHl (source : DataPair)
  | rotateA (rotation : Rotation)
  | adjustDecimal
  | complementA
  | setCarry
  | complementCarry
  | shift (kind : Shift) (register : DataRegister)
  | checkBit (position : Fin 8) (register : DataRegister)
  | clearBit (position : Fin 8) (register : DataRegister)
  | setBit (position : Fin 8) (register : DataRegister)
  deriving DecidableEq, Repr

/-- The value that follows an opcode. -/
inductive Immediate where
  | absent | byte | word
  deriving DecidableEq, Repr

/-- The number of bytes of an immediate value. -/
def Immediate.size : Immediate → Nat
  | absent => 0
  | byte => 1
  | word => 2

namespace Operation

/-- The immediate value that an operation takes. -/
def immediate : Operation → Immediate
  | loadPair _ => .word
  | load _ .immediate | arithmetic _ .immediate => .byte
  | _ => .absent

/-- The number of bytes of an instruction, from its opcode to its immediate value. -/
def length : Operation → Nat
  | loadPair _ => 3
  | load _ .immediate | arithmetic _ .immediate => 2
  | shift _ _ | checkBit _ _ | clearBit _ _ | setBit _ _ => 2
  | _ => 1

/-- The number of clock cycles of an instruction. -/
def cycles : Operation → Nat
  | loadPair _ => 12
  | load _ .immediate | arithmetic _ .immediate => 8
  | incrementPair _ | decrementPair _ | addHl _ => 8
  | shift _ _ | checkBit _ _ | clearBit _ _ | setBit _ _ => 8
  | _ => 4

theorem length_pos (operation : Operation) : 0 < operation.length := by
  fun_cases length operation <;> decide

theorem cycles_le_twelve (operation : Operation) : operation.cycles ≤ 12 := by
  fun_cases cycles operation <;> decide

end Operation

end Sm83
