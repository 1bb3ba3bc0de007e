import Sm83.Arithmetic
import Sm83.Shift

/-! # Updates

The changes of the registers that always succeed, for any choice of registers. Unlike the
operations of instructions they may name the flag register and the pair that holds it. -/

namespace Sm83

/-- A change of the registers that always succeeds. -/
inductive Update where
  | combine (op : ByteOp) (source destination : Register)
  | increment (register : Register)
  | decrement (register : Register)
  | addRegister (source : Register) (destination : Pair)
  | addPair (source destination : Pair)
  | incrementPair (pair : Pair)
  | decrementPair (pair : Pair)
  | setCarry
  | complementCarry
  | adjustDecimal
  | rotateA (rotation : Rotation)
  | shift (kind : Shift) (register : Register)
  | complement (register : Register)
  | set (register : Register) (byte : Byte)
  | setPair (pair : Pair) (word : Word)
  deriving Repr

/-- The registers after an update. -/
def Update.apply (update : Update) (registers : Registers) : Registers :=
  match update with
  | .combine op source destination => registers.combine op destination (registers.get source)
  | .increment register => registers.increment register
  | .decrement register => registers.decrement register
  | .addRegister source destination => registers.addRegister source destination
  | .addPair source destination => registers.addPair source destination
  | .incrementPair pair => registers.incrementPair pair
  | .decrementPair pair => registers.decrementPair pair
  | .setCarry => registers.setCarry
  | .complementCarry => registers.complementCarry
  | .adjustDecimal => registers.adjustDecimal
  | .rotateA rotation => registers.rotateA rotation
  | .shift kind register => registers.shift kind register
  | .complement register => registers.complement register
  | .set register byte => registers.set register byte
  | .setPair pair word => registers.setPair pair word

end Sm83
