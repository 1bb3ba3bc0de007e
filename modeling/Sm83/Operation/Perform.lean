import Sm83.Arithmetic
import Sm83.Operation.Basic

/-! # Effects of operations

An operation acts on the registers alone. Its immediate value arrives as a word, of
which a byte operand is the lower half. -/

namespace Sm83

/-- The byte operand that a source supplies. -/
def Source.operand (source : Source) (immediate : Word) (registers : Registers) : Byte :=
  match source with
  | .register name => registers.get name
  | .immediate => lowByte immediate

/-- The registers after an operation. -/
def Operation.perform (operation : Operation) (immediate : Word) (registers : Registers) :
    Registers :=
  match operation with
  | .nop => registers
  | .load destination source =>
      registers.set destination (source.operand immediate registers)
  | .loadPair destination => registers.setPair destination immediate
  | .arithmetic op source => registers.combine op .a (source.operand immediate registers)
  | .increment register => registers.increment register
  | .decrement register => registers.decrement register
  | .incrementPair pair => registers.incrementPair pair
  | .decrementPair pair => registers.decrementPair pair
  | .addHl source => registers.addPair source .hl
  | .rotateA rotation => registers.rotateA rotation
  | .adjustDecimal => registers.adjustDecimal
  | .complementA => registers.complement .a
  | .setCarry => registers.setCarry
  | .complementCarry => registers.complementCarry
  | .shift kind register => registers.shift kind register
  | .checkBit position register => registers.checkBit register position
  | .clearBit position register => registers.clearBit register position
  | .setBit position register => registers.setBit register position

end Sm83
