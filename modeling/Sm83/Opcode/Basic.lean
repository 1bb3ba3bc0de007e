import Sm83.Opcode.Fields

/-! # Opcodes

An opcode is one byte, or the byte 0xCB and a second byte. The fields of its last byte
place it in one of two maps; a place without an operation is not implemented. -/

namespace Sm83

/-- The first byte of every opcode of two bytes. -/
def extension : Byte := 0xCB

/-- A position in the map of all opcodes. -/
inductive Opcode where
  | base (byte : Byte)
  | extended (byte : Byte)
  deriving DecidableEq, Repr

namespace Opcode

/-- The bytes of an opcode. -/
def bytes : Opcode → List Byte
  | base byte => [byte]
  | extended byte => [extension, byte]

/-- The byte with which an opcode begins. -/
def first : Opcode → Byte
  | base byte => byte
  | extended _ => extension

/-- An opcode as a number, its first byte in front. -/
def number : Opcode → Word
  | base byte => joinBytes 0 byte
  | extended byte => joinBytes extension byte

/-- The operations on the accumulator and the flags in column 7 of group 0. -/
def accumulatorOperation : Fin 8 → Operation
  | 0 => .rotateA .rlc
  | 1 => .rotateA .rrc
  | 2 => .rotateA .rl
  | 3 => .rotateA .rr
  | 4 => .adjustDecimal
  | 5 => .complementA
  | 6 => .setCarry
  | 7 => .complementCarry

/-- The operation of an opcode of one byte. -/
def decodeBase (fields : OpcodeFields) : Option Operation :=
  match fields.group, fields.column with
  | 0, 0 => if fields.row.val = 0 then some .nop else none
  | 0, 1 => (DataPair.ofRow? fields.row).map fun pair =>
      if fields.row.val % 2 = 0 then .loadPair pair else .addHl pair
  | 0, 3 => (DataPair.ofRow? fields.row).map fun pair =>
      if fields.row.val % 2 = 0 then .incrementPair pair else .decrementPair pair
  | 0, 4 => (DataRegister.ofNumber? fields.row).map .increment
  | 0, 5 => (DataRegister.ofNumber? fields.row).map .decrement
  | 0, 6 => (DataRegister.ofNumber? fields.row).map (.load · .immediate)
  | 0, 7 => some (accumulatorOperation fields.row)
  | 1, column => do
      let destination ← DataRegister.ofNumber? fields.row
      let source ← DataRegister.ofNumber? column
      return .load destination (.register source)
  | 2, column => (DataRegister.ofNumber? column).map fun source =>
      .arithmetic (ByteOp.ofNumber fields.row) (.register source)
  | 3, 6 => some (.arithmetic (ByteOp.ofNumber fields.row) .immediate)
  | _, _ => none

/-- The operation of an opcode of two bytes, from its second byte. -/
def decodeExtended (fields : OpcodeFields) : Option Operation :=
  (DataRegister.ofNumber? fields.column).map fun register =>
    match fields.group with
    | 0 => .shift (Shift.ofNumber fields.row) register
    | 1 => .checkBit fields.row register
    | 2 => .clearBit fields.row register
    | 3 => .setBit fields.row register

/-- The operation of an opcode, if it is implemented. -/
def decode : Opcode → Option Operation
  | base byte => decodeBase (.ofByte byte)
  | extended byte => decodeExtended (.ofByte byte)

end Opcode

end Sm83
