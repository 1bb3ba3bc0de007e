import Sm83.Byte

/-! # Condition flags

The four conditions and the byte that holds them: bit 7 is zero, bit 6 subtract,
bit 5 half carry and bit 4 carry. The other four bits do not exist, so reading a
byte as flags forgets them and writing flags as a byte leaves them clear. -/

namespace Sm83

/-- The four conditions that an operation leaves behind. -/
structure Flags where
  zero : Bool := false
  subtract : Bool := false
  halfCarry : Bool := false
  carry : Bool := false
  deriving DecidableEq, Repr, Inhabited

/-- The name of one condition. -/
inductive Flag where
  | zero | subtract | halfCarry | carry
  deriving DecidableEq, Repr

/-- The bit that holds a condition. -/
def Flag.position : Flag → Nat
  | .zero => 7
  | .subtract => 6
  | .halfCarry => 5
  | .carry => 4

/-- The byte with only this condition's bit set. -/
def Flag.mask (flag : Flag) : Byte := 1 <<< flag.position

namespace Flags

/-- Whether a condition holds. -/
def get (flags : Flags) : Flag → Bool
  | .zero => flags.zero
  | .subtract => flags.subtract
  | .halfCarry => flags.halfCarry
  | .carry => flags.carry

/-- The conditions held in a byte. -/
def ofByte (byte : Byte) : Flags where
  zero := byte.getLsbD Flag.zero.position
  subtract := byte.getLsbD Flag.subtract.position
  halfCarry := byte.getLsbD Flag.halfCarry.position
  carry := byte.getLsbD Flag.carry.position

/-- The byte that holds the conditions. -/
def toByte (flags : Flags) : Byte :=
  (if flags.zero then Flag.zero.mask else 0)
    ||| (if flags.subtract then Flag.subtract.mask else 0)
    ||| (if flags.halfCarry then Flag.halfCarry.mask else 0)
    ||| (if flags.carry then Flag.carry.mask else 0)

@[simp] theorem ofByte_toByte (flags : Flags) : ofByte flags.toByte = flags := by
  obtain ⟨_ | _, _ | _, _ | _, _ | _⟩ := flags <;> rfl

/-- Only the upper half of a byte survives. -/
@[simp] theorem toByte_ofByte (byte : Byte) : (ofByte byte).toByte = byte &&& 0xF0 := by
  revert byte
  decide

theorem toByte_injective {flags other : Flags} (h : flags.toByte = other.toByte) :
    flags = other := by
  rw [← ofByte_toByte flags, h, ofByte_toByte]

end Flags

end Sm83
