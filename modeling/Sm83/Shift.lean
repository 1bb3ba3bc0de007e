import Sm83.Arithmetic

/-! # Rotations and shifts

Moves of a byte by one place, and the exchange of its halves. The bit that leaves
the byte becomes the carry. -/

namespace Sm83

/-- The four rotations. `rlc` and `rrc` turn the eight bits of the byte, `rl` and `rr` the
nine bits of the byte and the carry. -/
inductive Rotation where
  | rlc | rrc | rl | rr
  deriving DecidableEq, Repr, Inhabited

/-- The rotations, the arithmetic shifts to the left and to the right, the exchange of halves
and the logical shift to the right. -/
inductive Shift where
  | rotate (rotation : Rotation)
  | sla | sra | swap | srl
  deriving DecidableEq, Repr, Inhabited

/-- The four rotations, in the order of their opcodes. -/
def Rotation.all : List Rotation := [rlc, rrc, rl, rr]

/-- The eight shifts, in the order of their opcodes. -/
def Shift.all : List Shift := Rotation.all.map rotate ++ [sla, sra, swap, srl]

/-- A byte that was moved, with the bit that left it. -/
structure Moved where
  value : Byte
  out : Bool
  deriving DecidableEq, Repr

/-- The rotation of a byte. -/
def Rotation.eval (rotation : Rotation) (byte : Byte) (carry : Bool) : Moved :=
  match rotation with
  | rlc => ⟨byte.rotateLeft 1, byte.getLsbD 7⟩
  | rrc => ⟨byte.rotateRight 1, byte.getLsbD 0⟩
  | rl => ⟨(byte <<< 1) ||| (if carry then 0x01 else 0), byte.getLsbD 7⟩
  | rr => ⟨(byte >>> 1) ||| (if carry then 0x80 else 0), byte.getLsbD 0⟩

/-- The shift of a byte. -/
def Shift.eval (kind : Shift) (byte : Byte) (carry : Bool) : Moved :=
  match kind with
  | rotate rotation => rotation.eval byte carry
  | sla => ⟨byte <<< 1, byte.getLsbD 7⟩
  | sra => ⟨byte.sshiftRight 1, byte.getLsbD 0⟩
  | swap => ⟨byte.rotateLeft 4, false⟩
  | srl => ⟨byte >>> 1, byte.getLsbD 0⟩

namespace Registers

/-- Shifts a register. -/
def shift (registers : Registers) (kind : Shift) (register : Register) : Registers :=
  let moved := kind.eval (registers.get register) registers.flags.carry
  registers.setWithFlags register moved.value { zero := moved.value == 0, carry := moved.out }

/-- Rotates the accumulator; unlike a shift of it, zero is cleared. -/
def rotateA (registers : Registers) (rotation : Rotation) : Registers :=
  let moved := rotation.eval registers.a registers.flags.carry
  registers.setWithFlags .a moved.value { carry := moved.out }

end Registers

end Sm83
