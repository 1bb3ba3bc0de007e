import Sm83.Byte
import Sm83.Text

/-! # Faults

What can go wrong, each with its cause, and the message that reports it. -/

namespace Sm83

/-- The reason why a request is refused. -/
inductive Fault where
  /-- No register has this name. -/
  | unknownRegister (name : String)
  /-- No register pair has this name. -/
  | unknownPair (name : String)
  /-- The instruction at `pc` is not implemented. -/
  | unimplemented (opcode pc : Word)
  /-- There is no memory cell at this address. -/
  | outOfRange (address : Nat)
  /-- A byte has no bit at this position. -/
  | badBitPosition (position : Byte)
  deriving DecidableEq, Repr

/-- An opcode is written with two digits, one beyond a byte with four. -/
def opcodeWidth (opcode : Word) : Nat := if opcode.toNat > 0xFF then 4 else 2

/-- The report of a fault. -/
def Fault.message : Fault → String
  | .unknownRegister name => "invalid register '" ++ name ++ "'"
  | .unknownPair name => "invalid register pair '" ++ name ++ "'"
  | .unimplemented opcode pc =>
      "unimplemented opcode " ++ Text.markedHex (opcodeWidth opcode) opcode.toNat
        ++ " at PC=" ++ Text.markedHex 4 pc.toNat
  | .outOfRange address => "address " ++ Text.markedHex 1 address ++ " is outside the 16-bit bus"
  | .badBitPosition position =>
      "bit position " ++ Nat.repr position.toNat ++ " is outside 0..=7"

end Sm83
