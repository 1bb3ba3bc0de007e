import Sm83.Operation.Basic
import Sm83.Text

/-! # Operations as text

The written form of an operation in the log: its name, and its operands as a term. -/

namespace Sm83

/-- A register operand is written as a capital letter. -/
def DataRegister.text (register : DataRegister) : String :=
  String.singleton (register : Register).letter.toUpper

/-- A pair operand is written as two capital letters. -/
def DataPair.text (pair : DataPair) : String := pair.high.text ++ pair.low.text

/-- The written form of a byte operand. -/
def Source.text : Source → String
  | .register name => Text.application "Reg" name.text
  | .immediate => "Imm8"

/-- The written form of an operation on two bytes. -/
def ByteOp.text : ByteOp → String
  | add => "Add"
  | adc => "Adc"
  | sub => "Sub"
  | sbc => "Sbc"
  | and => "And"
  | xor => "Xor"
  | or => "Or"
  | cp => "Cp"

/-- The written form of a rotation. -/
def Rotation.text : Rotation → String
  | rlc => "Rlc"
  | rrc => "Rrc"
  | rl => "Rl"
  | rr => "Rr"

/-- The written form of a shift. -/
def Shift.text : Shift → String
  | rotate rotation => rotation.text
  | sla => "Sla"
  | sra => "Sra"
  | swap => "Swap"
  | srl => "Srl"

/-- The written form of an operation on one bit. -/
def Operation.bitText (head : String) (position : Fin 8) (register : DataRegister) : String :=
  Text.record head [("bit", Nat.repr position), ("reg", register.text)]

/-- The written form of an operation. -/
def Operation.text : Operation → String
  | nop => "Nop"
  | load destination source =>
      Text.record "Ld" [("dst", destination.text), ("src", source.text)]
  | loadPair destination => Text.application "LdPairImm" destination.text
  | arithmetic op source => Text.record "Alu" [("op", op.text), ("src", source.text)]
  | increment register => Text.application "Inc" register.text
  | decrement register => Text.application "Dec" register.text
  | incrementPair pair => Text.application "IncPair" pair.text
  | decrementPair pair => Text.application "DecPair" pair.text
  | addHl source => Text.application "AddHl" source.text
  | rotateA rotation => Text.application "RotateA" rotation.text
  | adjustDecimal => "Daa"
  | complementA => "Cpl"
  | setCarry => "Scf"
  | complementCarry => "Ccf"
  | shift kind register => Text.record "Shift" [("op", kind.text), ("reg", register.text)]
  | checkBit position register => bitText "Bit" position register
  | clearBit position register => bitText "Res" position register
  | setBit position register => bitText "Set" position register

end Sm83
