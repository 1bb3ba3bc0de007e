import Sm83.Registers

/-! # Arithmetic

Sums and differences of equal widths with two carries: the one out of the top bit and
the half carry, which crosses into the top four bits. On them rest the eight operations
on two bytes, decimal adjustment, additions into a register pair, and counting bytes and
pairs up or down. An operation on bytes stores its result first and the flags after it,
so that flags computed while writing to the flag register are the ones that remain. -/

namespace Sm83

/-! ## Sums with their carries -/

/-- A sum or difference, with the carries or borrows met on the way. -/
structure Carried (width : Nat) where
  value : BitVec width
  halfCarry : Bool
  carry : Bool
  deriving DecidableEq, Repr

namespace Carried

variable {width : Nat}

/-- The sum of two numbers and an incoming carry. -/
def add (x y : BitVec width) (carryIn : Bool) : Carried width where
  value := x + y + (BitVec.ofBool carryIn).setWidth width
  halfCarry := BitVec.carry (width - 4) x y carryIn
  carry := BitVec.carry width x y carryIn

/-- The difference of two numbers less an incoming borrow: the sum with the complement,
whose carries are borrows. -/
def sub (x y : BitVec width) (borrowIn : Bool) : Carried width :=
  let sum := add x (~~~y) (!borrowIn)
  { value := sum.value, halfCarry := !sum.halfCarry, carry := !sum.carry }

end Carried

/-! ## Bytes -/

/-- The operations on two bytes, in the order of their opcodes. -/
inductive ByteOp where
  | add | adc | sub | sbc | and | xor | or | cp
  deriving DecidableEq, Repr, Inhabited

/-- A byte computed by an operation, with the flags that it leaves. -/
structure ByteResult where
  value : Byte
  flags : Flags
  deriving DecidableEq, Repr

/-- The flags left by a sum, or by a difference if `subtract` holds. -/
def Carried.flags {width : Nat} (carried : Carried width) (subtract : Bool) : Flags where
  zero := carried.value == 0
  subtract := subtract
  halfCarry := carried.halfCarry
  carry := carried.carry

namespace ByteOp

/-- Every operation on two bytes, in the order of their opcodes. -/
def all : List ByteOp := [add, adc, sub, sbc, and, xor, or, cp]

/-- A sum with its flags. -/
def sum (x y : Byte) (carryIn : Bool) : ByteResult :=
  let carried := Carried.add x y carryIn
  ⟨carried.value, carried.flags false⟩

/-- A difference with its flags. -/
def difference (x y : Byte) (borrowIn : Bool) : ByteResult :=
  let carried := Carried.sub x y borrowIn
  ⟨carried.value, carried.flags true⟩

/-- A bitwise result with its flags. -/
def bitwise (value : Byte) (halfCarry : Bool) : ByteResult :=
  ⟨value, { zero := value == 0, halfCarry }⟩

/-- The result of an operation on a left and a right operand. A comparison computes a
difference. -/
def eval (op : ByteOp) (x y : Byte) (carryIn : Bool) : ByteResult :=
  match op with
  | add => sum x y false
  | adc => sum x y carryIn
  | sub => difference x y false
  | sbc => difference x y carryIn
  | and => bitwise (x &&& y) true
  | xor => bitwise (x ^^^ y) false
  | or => bitwise (x ||| y) false
  | cp => difference x y false

/-- Whether the result is stored. A comparison only leaves its flags. -/
def stores : ByteOp → Bool
  | cp => false
  | _ => true

end ByteOp

namespace Registers

/-- Stores a byte and then replaces the flags. -/
def setWithFlags (registers : Registers) (register : Register) (byte : Byte) (flags : Flags) :
    Registers :=
  { registers.set register byte with flags }

theorem get_setWithFlags (registers : Registers) (register other : Register) (byte : Byte)
    (flags : Flags) :
    (registers.setWithFlags register byte flags).get other =
      if other = .f then flags.toByte
      else if other = register then byte
      else registers.get other := by
  cases register <;> cases other <;> rfl

/-- Applies an operation to a register and an operand. -/
def combine (registers : Registers) (op : ByteOp) (destination : Register) (operand : Byte) :
    Registers :=
  let result := op.eval (registers.get destination) operand registers.flags.carry
  if op.stores then registers.setWithFlags destination result.value result.flags
  else { registers with flags := result.flags }

theorem get_combine (registers : Registers) (op : ByteOp) (destination register : Register)
    (operand : Byte) :
    let result := op.eval (registers.get destination) operand registers.flags.carry
    (registers.combine op destination operand).get register =
      if register = .f then result.flags.toByte
      else if register = destination ∧ op.stores then result.value
      else registers.get register := by
  by_cases stores : op.stores
  · simp [combine, stores, get_setWithFlags]
  · simp only [combine, stores, Bool.false_eq_true, if_false, and_false]
    cases register <;> rfl

/-- Counts a register up; the carry is kept. -/
def increment (registers : Registers) (register : Register) : Registers :=
  let sum := Carried.add (registers.get register) 1 false
  registers.setWithFlags register sum.value
    { sum.flags false with carry := registers.flags.carry }

/-- Counts a register down; the carry is kept. -/
def decrement (registers : Registers) (register : Register) : Registers :=
  let difference := Carried.sub (registers.get register) 1 false
  registers.setWithFlags register difference.value
    { difference.flags true with carry := registers.flags.carry }

/-- Inverts a register; zero and carry are kept. -/
def complement (registers : Registers) (register : Register) : Registers :=
  registers.setWithFlags register (~~~(registers.get register))
    { registers.flags with subtract := true, halfCarry := true }

/-- Sets the carry; zero and subtract are kept. -/
def setCarry (registers : Registers) : Registers :=
  { registers with flags := { registers.flags with halfCarry := false, carry := true } }

/-- Inverts the carry; zero and subtract are kept. -/
def complementCarry (registers : Registers) : Registers :=
  { registers with
    flags := { registers.flags with halfCarry := false, carry := !registers.flags.carry } }

end Registers

/-! ## Decimal digits

A byte can hold two decimal digits, four bits each. After a binary addition or
subtraction of such bytes the adjustment restores the digits: it corrects by six
every digit that passed nine or carried. -/

/-- Restores the two decimal digits of the last sum or difference. The flags are those
that the addition or subtraction left. -/
def decimalAdjustment (value : Byte) (flags : Flags) : ByteResult :=
  let lower := flags.halfCarry || (!flags.subtract && decide (0x09 < value.toNat % 16))
  let upper := flags.carry || (!flags.subtract && decide (0x99 < value.toNat))
  let correction : Byte := (if lower then 0x06 else 0) ||| (if upper then 0x60 else 0)
  let adjusted := if flags.subtract then value - correction else value + correction
  { value := adjusted
    flags := { zero := adjusted == 0, subtract := flags.subtract, carry := upper } }

/-- Adjusts the accumulator. -/
def Registers.adjustDecimal (registers : Registers) : Registers :=
  let result := decimalAdjustment registers.a registers.flags
  registers.setWithFlags .a result.value result.flags

/-! ## Words

Counting a pair touches no flag by itself; a pair that holds the flags still loses what
they cannot keep. -/

namespace Registers

/-- Adds one pair into another; zero is kept. -/
def addPair (registers : Registers) (source destination : Pair) : Registers :=
  let sum := Carried.add (registers.getPair destination) (registers.getPair source) false
  { registers.setPair destination sum.value with
    flags := { sum.flags false with zero := registers.flags.zero } }

/-- Adds a byte register into a pair; zero tells whether the whole sum is zero. -/
def addRegister (registers : Registers) (source : Register) (destination : Pair) : Registers :=
  let operand := joinBytes 0 (registers.get source)
  let sum := Carried.add (registers.getPair destination) operand false
  { registers.setPair destination sum.value with flags := sum.flags false }

/-- Counts a pair up. -/
def incrementPair (registers : Registers) (pair : Pair) : Registers :=
  registers.setPair pair (registers.getPair pair + 1)

/-- Counts a pair down. -/
def decrementPair (registers : Registers) (pair : Pair) : Registers :=
  registers.setPair pair (registers.getPair pair - 1)

end Registers

end Sm83
