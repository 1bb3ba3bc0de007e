import Sm83.Operation.Basic

/-! # Fields of an opcode byte

Two bits choose a group, three a row and three a column. Rows and columns number
registers, pairs, operations and shifts; numbers without a meaning leave gaps. -/

namespace Sm83

/-- The three fields of an opcode byte. -/
structure OpcodeFields where
  group : Fin 4
  row : Fin 8
  column : Fin 8
  deriving DecidableEq, Repr

namespace OpcodeFields

/-- The byte with the given numbers in its fields. -/
def place (group row column : Nat) : Byte := BitVec.ofNat 8 (64 * group + 8 * row + column)

/-- The fields of a byte. -/
def ofByte (byte : Byte) : OpcodeFields where
  group := (byte.extractLsb' 6 2).toFin
  row := (byte.extractLsb' 3 3).toFin
  column := (byte.extractLsb' 0 3).toFin

end OpcodeFields

/-- The number of a register in an opcode. Number 6 stands for memory. -/
def DataRegister.number : DataRegister → Fin 8
  | b => 0
  | c => 1
  | d => 2
  | e => 3
  | h => 4
  | l => 5
  | a => 7

/-- The register with a number. -/
def DataRegister.ofNumber? (number : Fin 8) : Option DataRegister :=
  all.find? (·.number == number)

/-- The number of a pair in an opcode: rows come in twos, one for each of two uses. Number
3 stands for the stack pointer. -/
def DataPair.number : DataPair → Fin 4
  | bc => 0
  | de => 1
  | hl => 2

/-- The pair with a number. -/
def DataPair.ofNumber? (number : Fin 4) : Option DataPair :=
  [bc, de, hl].find? (·.number == number)

/-- The pair to which a row belongs. -/
def DataPair.ofRow? (row : Fin 8) : Option DataPair :=
  ofNumber? ⟨row / 2, by omega⟩

/-- The number of an operation on two bytes. -/
def ByteOp.number : ByteOp → Fin 8
  | add => 0
  | adc => 1
  | sub => 2
  | sbc => 3
  | and => 4
  | xor => 5
  | or => 6
  | cp => 7

/-- The operation on two bytes with a number. -/
def ByteOp.ofNumber (number : Fin 8) : ByteOp := all.get number

/-- The number of a rotation. -/
def Rotation.number : Rotation → Fin 8
  | rlc => 0
  | rrc => 1
  | rl => 2
  | rr => 3

/-- The number of a shift. -/
def Shift.number : Shift → Fin 8
  | rotate rotation => rotation.number
  | sla => 4
  | sra => 5
  | swap => 6
  | srl => 7

/-- The shift with a number. -/
def Shift.ofNumber (number : Fin 8) : Shift := all.get number

end Sm83
