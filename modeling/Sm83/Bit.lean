import Sm83.Registers

/-! # Single bits

Testing, setting and clearing one bit of a register. A byte has eight bits; any other
position is refused before anything changes. -/

namespace Sm83

/-- A position as the number of a bit in a byte. -/
def bitPosition (position : Byte) : Except Fault (Fin 8) :=
  if inside : position.toNat < 8 then .ok ⟨position.toNat, inside⟩
  else .error (.badBitPosition position)

theorem bitPosition_of_lt {position : Byte} (inside : position.toNat < 8) :
    bitPosition position = .ok ⟨position.toNat, inside⟩ :=
  dif_pos inside

theorem bitPosition_of_le {position : Byte} (beyond : 8 ≤ position.toNat) :
    bitPosition position = .error (.badBitPosition position) :=
  dif_neg (Nat.not_lt.mpr beyond)

/-- The number of a bit is accepted as a position. -/
theorem bitPosition_ofNat (position : Fin 8) :
    bitPosition (BitVec.ofNat 8 position) = .ok position := by
  have small : (BitVec.ofNat 8 position).toNat = position := by
    rw [BitVec.toNat_ofNat]
    omega
  rw [bitPosition_of_lt (by omega)]
  exact congrArg Except.ok (Fin.ext small)

/-- The byte with only this bit set. -/
def bitMask (position : Fin 8) : Byte := 1 <<< position.val

namespace Registers

/-- Whether a bit of a register is set. -/
def testBit (registers : Registers) (register : Register) (position : Fin 8) : Bool :=
  (registers.get register).getLsbD position

/-- Leaves the complement of a bit as the zero flag; the carry is kept. -/
def checkBit (registers : Registers) (register : Register) (position : Fin 8) : Registers :=
  { registers with
    flags :=
      { zero := !registers.testBit register position
        halfCarry := true
        carry := registers.flags.carry } }

/-- Sets a bit of a register. -/
def setBit (registers : Registers) (register : Register) (position : Fin 8) : Registers :=
  registers.set register (registers.get register ||| bitMask position)

/-- Clears a bit of a register. -/
def clearBit (registers : Registers) (register : Register) (position : Fin 8) : Registers :=
  registers.set register (registers.get register &&& ~~~(bitMask position))

end Registers

end Sm83
