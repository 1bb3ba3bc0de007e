import Sm83.Monitor.Command
import Sm83.Opcode.Coverage

/-!
# The layout of opcodes

The published layout lists the opcodes by their numbers and gives each a method of the
processor, which a monitor can call as well. Main statements: the opcodes with a method
are those of the operations with this method.

## Implementation notes

The layout is a relation on opcode numbers, written without the fields of the decoder
and without operations. Its methods are commands of a monitor. The idle opcode and
arithmetic with the next byte have no method and stand apart.
-/

namespace Sm83.Layout

/-- The register with a number. Number 6 stands for memory. -/
def register? : Fin 8 → Option Register
  | 0 => some .b
  | 1 => some .c
  | 2 => some .d
  | 3 => some .e
  | 4 => some .h
  | 5 => some .l
  | 6 => none
  | 7 => some .a

/-- The pair with a number. Number 3 stands for the stack pointer. -/
def pair? : Fin 4 → Option Pair
  | 0 => some .bc
  | 1 => some .de
  | 2 => some .hl
  | 3 => none

/-- The operation on two bytes with a number. -/
def byteOp : Fin 8 → ByteOp
  | 0 => .add
  | 1 => .adc
  | 2 => .sub
  | 3 => .sbc
  | 4 => .and
  | 5 => .xor
  | 6 => .or
  | 7 => .cp

/-- The rotation with a number. -/
def rotation : Fin 4 → Rotation
  | 0 => .rlc
  | 1 => .rrc
  | 2 => .rl
  | 3 => .rr

/-- The shift with a number. -/
def shiftKind : Fin 8 → Shift
  | 0 => .rotate .rlc
  | 1 => .rotate .rrc
  | 2 => .rotate .rl
  | 3 => .rotate .rr
  | 4 => .sla
  | 5 => .sra
  | 6 => .swap
  | 7 => .srl

/-- The opcode of one byte with a number. -/
def base (number : Nat) : Opcode := .base (BitVec.ofNat 8 number)

/-- The byte behind 0xCB in a row and column of a page of the second map. -/
def second (page : Nat) (row column : Fin 8) : Byte := BitVec.ofNat 8 (page + 8 * row + column)

/-- The method that the layout assigns to an opcode, for these registers and these two bytes
behind the opcode. -/
inductive Assigned (low high : Byte) (registers : Registers) : Opcode → Command → Prop
  | loadPair {number pair} (named : pair? number = some pair) :
      Assigned low high registers (base (0x01 + 0x10 * number))
        (.update (.setPair pair (BitVec.ofNat 16 (low.toNat + 256 * high.toNat))))
  | incrementPair {number pair} (named : pair? number = some pair) :
      Assigned low high registers (base (0x03 + 0x10 * number)) (.update (.incrementPair pair))
  | addHl {number pair} (named : pair? number = some pair) :
      Assigned low high registers (base (0x09 + 0x10 * number)) (.update (.addPair pair .hl))
  | decrementPair {number pair} (named : pair? number = some pair) :
      Assigned low high registers (base (0x0B + 0x10 * number)) (.update (.decrementPair pair))
  | increment {row register} (named : register? row = some register) :
      Assigned low high registers (base (0x04 + 8 * row)) (.update (.increment register))
  | decrement {row register} (named : register? row = some register) :
      Assigned low high registers (base (0x05 + 8 * row)) (.update (.decrement register))
  | loadNext {row register} (named : register? row = some register) :
      Assigned low high registers (base (0x06 + 8 * row)) (.update (.set register low))
  | rotateA (row : Fin 4) :
      Assigned low high registers (base (0x07 + 8 * row)) (.update (.rotateA (rotation row)))
  | adjustDecimal : Assigned low high registers (base 0x27) (.update .adjustDecimal)
  | complement : Assigned low high registers (base 0x2F) (.update (.complement .a))
  | setCarry : Assigned low high registers (base 0x37) (.update .setCarry)
  | complementCarry : Assigned low high registers (base 0x3F) (.update .complementCarry)
  | load {row column destination source} (named : register? row = some destination)
      (read : register? column = some source) :
      Assigned low high registers (base (0x40 + 8 * row + column))
        (.update (.set destination (registers.get source)))
  | combine (row : Fin 8) {column source} (read : register? column = some source) :
      Assigned low high registers (base (0x80 + 8 * row + column))
        (.update (.combine (byteOp row) source .a))
  | shift (row : Fin 8) {column register} (named : register? column = some register) :
      Assigned low high registers (.extended (second 0x00 row column))
        (.update (.shift (shiftKind row) register))
  | checkBit (row : Fin 8) {column register} (named : register? column = some register) :
      Assigned low high registers (.extended (second 0x40 row column))
        (.checkBit register ((second 0x40 row column >>> 3) &&& 7))
  | clearBit (row : Fin 8) {column register} (named : register? column = some register) :
      Assigned low high registers (.extended (second 0x80 row column))
        (.clearBit register ((second 0x80 row column >>> 3) &&& 7))
  | setBit (row : Fin 8) {column register} (named : register? column = some register) :
      Assigned low high registers (.extended (second 0xC0 row column))
        (.setBit register ((second 0xC0 row column >>> 3) &&& 7))

/-! ## The layout and the opcodes of operations -/

/-- The method of an operation, except for the idle one and arithmetic with the next byte. -/
def method? (low high : Byte) (registers : Registers) : Operation → Option Command
  | .nop | .arithmetic _ .immediate => none
  | .load destination (.register source) => some (.update (.set destination (registers.get source)))
  | .load destination .immediate => some (.update (.set destination low))
  | .loadPair pair =>
      some (.update (.setPair pair (BitVec.ofNat 16 (low.toNat + 256 * high.toNat))))
  | .arithmetic op (.register source) => some (.update (.combine op source .a))
  | .increment register => some (.update (.increment register))
  | .decrement register => some (.update (.decrement register))
  | .incrementPair pair => some (.update (.incrementPair pair))
  | .decrementPair pair => some (.update (.decrementPair pair))
  | .addHl pair => some (.update (.addPair pair .hl))
  | .rotateA rotation => some (.update (.rotateA rotation))
  | .adjustDecimal => some (.update .adjustDecimal)
  | .complementA => some (.update (.complement .a))
  | .setCarry => some (.update .setCarry)
  | .complementCarry => some (.update .complementCarry)
  | .shift kind register => some (.update (.shift kind register))
  | .checkBit position register => some (.checkBit register (BitVec.ofNat 8 position))
  | .clearBit position register => some (.clearBit register (BitVec.ofNat 8 position))
  | .setBit position register => some (.setBit register (BitVec.ofNat 8 position))

theorem exists_of_register? : ∀ {number : Fin 8} {register : Register},
    register? number = some register →
      ∃ named : DataRegister, named.number = number ∧ (named : Register) = register
  | 0, _, rfl => ⟨.b, rfl, rfl⟩
  | 1, _, rfl => ⟨.c, rfl, rfl⟩
  | 2, _, rfl => ⟨.d, rfl, rfl⟩
  | 3, _, rfl => ⟨.e, rfl, rfl⟩
  | 4, _, rfl => ⟨.h, rfl, rfl⟩
  | 5, _, rfl => ⟨.l, rfl, rfl⟩
  | 7, _, rfl => ⟨.a, rfl, rfl⟩

theorem register?_number (register : DataRegister) :
    register? register.number = some (register : Register) := by
  cases register <;> rfl

theorem exists_of_pair? : ∀ {number : Fin 4} {pair : Pair},
    pair? number = some pair → ∃ named : DataPair, named.number = number ∧ (named : Pair) = pair
  | 0, _, rfl => ⟨.bc, rfl, rfl⟩
  | 1, _, rfl => ⟨.de, rfl, rfl⟩
  | 2, _, rfl => ⟨.hl, rfl, rfl⟩
  | 3, _, named => nomatch named

theorem pair?_number (pair : DataPair) : pair? pair.number = some (pair : Pair) := by
  cases pair <;> rfl

theorem number_byteOp (number : Fin 8) : (byteOp number).number = number := by
  revert number
  decide

theorem byteOp_number (op : ByteOp) : byteOp op.number = op := by
  cases op <;> rfl

theorem exists_rotation (kind : Rotation) : ∃ row, rotation row = kind := by
  cases kind with
  | rlc => exact ⟨0, rfl⟩
  | rrc => exact ⟨1, rfl⟩
  | rl => exact ⟨2, rfl⟩
  | rr => exact ⟨3, rfl⟩

theorem number_shiftKind (number : Fin 8) : (shiftKind number).number = number := by
  revert number
  decide

theorem shiftKind_number (kind : Shift) : shiftKind kind.number = kind := by
  cases kind with
  | rotate rotation => cases rotation <;> rfl
  | _ => rfl

/-- The third field of a byte in the second map, in its lower bits, is the row. -/
theorem row_second (page : Fin 4) (row column : Fin 8) :
    (second (0x40 * page) row column >>> 3) &&& 7 = BitVec.ofNat 8 row := by
  revert page row column
  decide

/-! The opcodes of operations, by the numbers that the layout gives them. -/

theorem opcode_loadPair (pair : DataPair) :
    (Operation.loadPair pair).opcode = base (0x01 + 0x10 * pair.number) := by
  cases pair <;> rfl

theorem opcode_incrementPair (pair : DataPair) :
    (Operation.incrementPair pair).opcode = base (0x03 + 0x10 * pair.number) := by
  cases pair <;> rfl

theorem opcode_addHl (pair : DataPair) :
    (Operation.addHl pair).opcode = base (0x09 + 0x10 * pair.number) := by
  cases pair <;> rfl

theorem opcode_decrementPair (pair : DataPair) :
    (Operation.decrementPair pair).opcode = base (0x0B + 0x10 * pair.number) := by
  cases pair <;> rfl

theorem opcode_increment (register : DataRegister) :
    (Operation.increment register).opcode = base (0x04 + 8 * register.number) := by
  cases register <;> rfl

theorem opcode_decrement (register : DataRegister) :
    (Operation.decrement register).opcode = base (0x05 + 8 * register.number) := by
  cases register <;> rfl

theorem opcode_loadNext (register : DataRegister) :
    (Operation.load register .immediate).opcode = base (0x06 + 8 * register.number) := by
  cases register <;> rfl

theorem opcode_rotateA (row : Fin 4) :
    (Operation.rotateA (rotation row)).opcode = base (0x07 + 8 * row) := by
  revert row
  decide

theorem opcode_combine (row : Fin 8) (source : DataRegister) :
    (Operation.arithmetic (byteOp row) (.register source)).opcode =
      base (0x80 + 8 * row + source.number) := by
  rw [Operation.opcode, number_byteOp]
  rfl

theorem opcode_combineNext (row : Fin 8) :
    (Operation.arithmetic (byteOp row) .immediate).opcode = base (0xC6 + 8 * row) := by
  revert row
  decide

theorem opcode_shift (row : Fin 8) (register : DataRegister) :
    (Operation.shift (shiftKind row) register).opcode =
      .extended (second 0x00 row register.number) := by
  rw [Operation.opcode, number_shiftKind]
  rfl

variable {low high : Byte} {registers : Registers}

/-- Every method of the layout is the method of an operation, at that operation's opcode. -/
theorem Assigned.exists_operation {code : Opcode} {command : Command}
    (assigned : Assigned low high registers code command) :
    ∃ operation : Operation, operation.opcode = code ∧
      method? low high registers operation = some command := by
  cases assigned with
  | loadPair named =>
      obtain ⟨pair, rfl, rfl⟩ := exists_of_pair? named
      exact ⟨.loadPair pair, opcode_loadPair pair, rfl⟩
  | incrementPair named =>
      obtain ⟨pair, rfl, rfl⟩ := exists_of_pair? named
      exact ⟨.incrementPair pair, opcode_incrementPair pair, rfl⟩
  | addHl named =>
      obtain ⟨pair, rfl, rfl⟩ := exists_of_pair? named
      exact ⟨.addHl pair, opcode_addHl pair, rfl⟩
  | decrementPair named =>
      obtain ⟨pair, rfl, rfl⟩ := exists_of_pair? named
      exact ⟨.decrementPair pair, opcode_decrementPair pair, rfl⟩
  | increment named =>
      obtain ⟨register, rfl, rfl⟩ := exists_of_register? named
      exact ⟨.increment register, opcode_increment register, rfl⟩
  | decrement named =>
      obtain ⟨register, rfl, rfl⟩ := exists_of_register? named
      exact ⟨.decrement register, opcode_decrement register, rfl⟩
  | loadNext named =>
      obtain ⟨register, rfl, rfl⟩ := exists_of_register? named
      exact ⟨.load register .immediate, opcode_loadNext register, rfl⟩
  | rotateA row => exact ⟨.rotateA (rotation row), opcode_rotateA row, rfl⟩
  | adjustDecimal => exact ⟨.adjustDecimal, rfl, rfl⟩
  | complement => exact ⟨.complementA, rfl, rfl⟩
  | setCarry => exact ⟨.setCarry, rfl, rfl⟩
  | complementCarry => exact ⟨.complementCarry, rfl, rfl⟩
  | load named read =>
      obtain ⟨destination, rfl, rfl⟩ := exists_of_register? named
      obtain ⟨source, rfl, rfl⟩ := exists_of_register? read
      exact ⟨.load destination (.register source), rfl, rfl⟩
  | combine row read =>
      obtain ⟨source, rfl, rfl⟩ := exists_of_register? read
      exact ⟨.arithmetic (byteOp row) (.register source), opcode_combine row source, rfl⟩
  | shift row named =>
      obtain ⟨register, rfl, rfl⟩ := exists_of_register? named
      exact ⟨.shift (shiftKind row) register, opcode_shift row register, rfl⟩
  | checkBit row named =>
      obtain ⟨register, rfl, rfl⟩ := exists_of_register? named
      exact ⟨.checkBit row register, rfl,
        congrArg (some ∘ Command.checkBit register) (row_second 1 row register.number).symm⟩
  | clearBit row named =>
      obtain ⟨register, rfl, rfl⟩ := exists_of_register? named
      exact ⟨.clearBit row register, rfl,
        congrArg (some ∘ Command.clearBit register) (row_second 2 row register.number).symm⟩
  | setBit row named =>
      obtain ⟨register, rfl, rfl⟩ := exists_of_register? named
      exact ⟨.setBit row register, rfl,
        congrArg (some ∘ Command.setBit register) (row_second 3 row register.number).symm⟩

/-- Every operation with a method has it at its opcode. -/
theorem assigned_opcode {operation : Operation} {command : Command}
    (method : method? low high registers operation = some command) :
    Assigned low high registers operation.opcode command := by
  cases operation with
  | nop => cases method
  | load destination source =>
      cases source with
      | register source =>
          cases method
          exact .load (register?_number destination) (register?_number source)
      | immediate =>
          cases method
          rw [opcode_loadNext]
          exact .loadNext (register?_number destination)
  | arithmetic op source =>
      cases source with
      | register source =>
          cases method
          rw [← byteOp_number op, opcode_combine]
          exact .combine op.number (register?_number source)
      | immediate => cases method
  | loadPair pair =>
      cases method
      rw [opcode_loadPair]
      exact .loadPair (pair?_number pair)
  | increment register =>
      cases method
      rw [opcode_increment]
      exact .increment (register?_number register)
  | decrement register =>
      cases method
      rw [opcode_decrement]
      exact .decrement (register?_number register)
  | incrementPair pair =>
      cases method
      rw [opcode_incrementPair]
      exact .incrementPair (pair?_number pair)
  | decrementPair pair =>
      cases method
      rw [opcode_decrementPair]
      exact .decrementPair (pair?_number pair)
  | addHl pair =>
      cases method
      rw [opcode_addHl]
      exact .addHl (pair?_number pair)
  | rotateA kind =>
      cases method
      obtain ⟨row, rfl⟩ := exists_rotation kind
      rw [opcode_rotateA]
      exact .rotateA row
  | adjustDecimal => cases method; exact .adjustDecimal
  | complementA => cases method; exact .complement
  | setCarry => cases method; exact .setCarry
  | complementCarry => cases method; exact .complementCarry
  | shift kind register =>
      cases method
      rw [← shiftKind_number kind, opcode_shift]
      exact .shift kind.number (register?_number register)
  | checkBit position register =>
      cases method
      rw [← row_second 1 position register.number]
      exact .checkBit position (register?_number register)
  | clearBit position register =>
      cases method
      rw [← row_second 2 position register.number]
      exact .clearBit position (register?_number register)
  | setBit position register =>
      cases method
      rw [← row_second 3 position register.number]
      exact .setBit position (register?_number register)

end Sm83.Layout
