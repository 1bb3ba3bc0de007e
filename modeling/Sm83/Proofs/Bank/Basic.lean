import Sm83.Monitor.Session
import Sm83.Proofs.Advance

/-!
# Registers as plain bytes

A bank holds eight bytes, the flags among them like any other. Nothing in its type keeps the lower
half of the flag byte clear: only storing a byte there drops it. The processor below works on a
bank, with every change of it made of such stores.

## Implementation notes

An operation reads bytes and decodes the flags from theirs. Where it rewrites flags that it has just
stored, it reads them back first.
-/

namespace Sm83

/-- The bytes in eight registers. -/
abbrev Bank := Register → Byte

namespace Bank

variable (bank : Bank)

/-- Stores a byte; of the flag byte only the upper half is kept. -/
def store (register : Register) (byte : Byte) : Bank := fun other =>
  if other = register then register.keep byte else bank other

/-- The flags, decoded from their byte. -/
def flags : Flags := .ofByte (bank .f)

/-- Stores flags as a byte. -/
def storeFlags (flags : Flags) : Bank := bank.store .f flags.toByte

/-- The word in a pair. -/
def word (pair : Pair) : Word := joinBytes (bank pair.high) (bank pair.low)

/-- Stores a word in a pair, the upper byte first. -/
def storeWord (pair : Pair) (word : Word) : Bank :=
  (bank.store pair.high (highByte word)).store pair.low (lowByte word)

/-- Stores a byte and then the flags. -/
def storeResult (register : Register) (byte : Byte) (flags : Flags) : Bank :=
  (bank.store register byte).storeFlags flags

/-! ## Changes of a bank -/

/-- Applies an operation to a register and an operand. -/
def combine (op : ByteOp) (destination : Register) (operand : Byte) : Bank :=
  let result := op.eval (bank destination) operand bank.flags.carry
  if op.stores then bank.storeResult destination result.value result.flags
  else bank.storeFlags result.flags

/-- Counts a register up. -/
def increment (register : Register) : Bank :=
  let sum := Carried.add (bank register) 1 false
  bank.storeResult register sum.value { sum.flags false with carry := bank.flags.carry }

/-- Counts a register down. -/
def decrement (register : Register) : Bank :=
  let difference := Carried.sub (bank register) 1 false
  bank.storeResult register difference.value
    { difference.flags true with carry := bank.flags.carry }

/-- Adds a word to a pair; zero is kept. -/
def addWord (destination : Pair) (operand : Word) : Bank :=
  let sum := Carried.add (bank.word destination) operand false
  (bank.storeWord destination sum.value).storeFlags
    { sum.flags false with zero := bank.flags.zero }

/-- Adds a register to a pair. -/
def addRegister (source : Register) (destination : Pair) : Bank :=
  let operand := joinBytes 0 (bank source)
  let added := bank.addWord destination operand
  added.storeFlags { added.flags with zero := bank.word destination + operand == 0 }

/-- Counts a pair up. -/
def incrementPair (pair : Pair) : Bank := bank.storeWord pair (bank.word pair + 1)

/-- Counts a pair down. -/
def decrementPair (pair : Pair) : Bank := bank.storeWord pair (bank.word pair - 1)

/-- Sets the carry. -/
def setCarry : Bank := bank.storeFlags { bank.flags with halfCarry := false, carry := true }

/-- Inverts the carry. -/
def complementCarry : Bank :=
  bank.storeFlags { bank.flags with halfCarry := false, carry := !bank.flags.carry }

/-- Adjusts the accumulator. -/
def adjustDecimal : Bank :=
  let result := decimalAdjustment (bank .a) bank.flags
  bank.storeResult .a result.value result.flags

/-- Shifts a register. -/
def shift (kind : Shift) (register : Register) : Bank :=
  let moved := kind.eval (bank register) bank.flags.carry
  bank.storeResult register moved.value { zero := moved.value == 0, carry := moved.out }

/-- Shifts the accumulator and then clears all flags but the carry. -/
def rotateA (rotation : Rotation) : Bank :=
  let shifted := bank.shift (.rotate rotation) .a
  shifted.storeFlags { carry := shifted.flags.carry }

/-- Inverts a register. -/
def complement (register : Register) : Bank :=
  bank.storeResult register (~~~(bank register))
    { bank.flags with subtract := true, halfCarry := true }

/-- Leaves the complement of a bit as the zero flag. -/
def checkBit (register : Register) (position : Fin 8) : Bank :=
  bank.storeFlags
    { zero := !(bank register).getLsbD position
      halfCarry := true
      carry := bank.flags.carry }

/-- Sets a bit of a register. -/
def setBit (register : Register) (position : Fin 8) : Bank :=
  bank.store register (bank register ||| bitMask position)

/-- Clears a bit of a register. -/
def clearBit (register : Register) (position : Fin 8) : Bank :=
  bank.store register (bank register &&& ~~~(bitMask position))

/-- The bank after an update. -/
def apply : Update → Bank
  | .combine op source destination => bank.combine op destination (bank source)
  | .increment register => bank.increment register
  | .decrement register => bank.decrement register
  | .addRegister source destination => bank.addRegister source destination
  | .addPair source destination => bank.addWord destination (bank.word source)
  | .incrementPair pair => bank.incrementPair pair
  | .decrementPair pair => bank.decrementPair pair
  | .setCarry => bank.setCarry
  | .complementCarry => bank.complementCarry
  | .adjustDecimal => bank.adjustDecimal
  | .rotateA rotation => bank.rotateA rotation
  | .shift kind register => bank.shift kind register
  | .complement register => bank.complement register
  | .set register byte => bank.store register byte
  | .setPair pair word => bank.storeWord pair word

/-- The byte operand that a source supplies. -/
def operand (immediate : Word) : Source → Byte
  | .register name => bank name
  | .immediate => lowByte immediate

/-- The bank after an operation. -/
def perform (immediate : Word) : Operation → Bank
  | .nop => bank
  | .load destination source => bank.store destination (bank.operand immediate source)
  | .loadPair destination => bank.storeWord destination immediate
  | .arithmetic op source => bank.combine op .a (bank.operand immediate source)
  | .increment register => bank.increment register
  | .decrement register => bank.decrement register
  | .incrementPair pair => bank.incrementPair pair
  | .decrementPair pair => bank.decrementPair pair
  | .addHl source => bank.addWord .hl (bank.word source)
  | .rotateA rotation => bank.rotateA rotation
  | .adjustDecimal => bank.adjustDecimal
  | .complementA => bank.complement .a
  | .setCarry => bank.setCarry
  | .complementCarry => bank.complementCarry
  | .shift kind register => bank.shift kind register
  | .checkBit position register => bank.checkBit register position
  | .clearBit position register => bank.clearBit register position
  | .setBit position register => bank.setBit register position

end Bank

/-! ## The processor on plain bytes -/

/-- A bank and a program counter. -/
structure BankedCpu where
  bank : Bank
  pc : Word

namespace BankedCpu

/-- Stores the bytes of a snapshot one after another. -/
def ofSnapshot (snapshot : Snapshot) : BankedCpu where
  bank :=
    let bank : Bank := fun _ => 0
    let bank := bank.store .a snapshot.a
    let bank := bank.store .f snapshot.f
    let bank := bank.store .b snapshot.b
    let bank := bank.store .c snapshot.c
    let bank := bank.store .d snapshot.d
    let bank := bank.store .e snapshot.e
    let bank := bank.store .h snapshot.h
    bank.store .l snapshot.l
  pc := snapshot.pc

variable (cpu : BankedCpu)

/-- Executes the instruction at the program counter, if it is implemented. -/
def step (bus : Bus) : Option BankedCpu :=
  (bus.opcodeAt cpu.pc).decode.map fun operation =>
    { bank := cpu.bank.perform (bus.immediateAt cpu.pc operation) operation
      pc := cpu.pc + BitVec.ofNat 16 operation.length }

/-- Executes instructions up to a limit. -/
def run (cpu : BankedCpu) (bus : Bus) : Nat → BankedCpu
  | 0 => cpu
  | limit + 1 =>
      match cpu.step bus with
      | some next => next.run bus limit
      | none => cpu

/-- The processor after a change of its bank that may be refused. -/
def tryBank (result : Except Fault Bank) : BankedCpu :=
  match result with
  | .ok bank => { cpu with bank }
  | .error _ => cpu

/-- Carries out a command. Commands that are not about the processor leave it alone. -/
def obey (memory : Memory) : Command → BankedCpu
  | .update update => { cpu with bank := cpu.bank.apply update }
  | .setNamed name value =>
      cpu.tryBank <| (Register.parse name).map (cpu.bank.store · (BitVec.ofInt 8 value))
  | .checkBit register position =>
      cpu.tryBank <| (bitPosition position).map (cpu.bank.checkBit register)
  | .setBit register position =>
      cpu.tryBank <| (bitPosition position).map (cpu.bank.setBit register)
  | .clearBit register position =>
      cpu.tryBank <| (bitPosition position).map (cpu.bank.clearBit register)
  | .setPc address => { cpu with pc := address }
  | .reset snapshot => ofSnapshot snapshot
  | .step => (cpu.step memory.read).getD cpu
  | .run limit => cpu.run memory.read limit
  | .ask _ | .save | .restore | .load _ _ | .writeByte _ _ | .writeAt _ _ => cpu

/-- Carries out commands one after another, each with a memory of its own. -/
def obeyAll (requests : List (Memory × Command)) : BankedCpu :=
  requests.foldl (fun cpu request => cpu.obey request.1 request.2) cpu

end BankedCpu

end Sm83
