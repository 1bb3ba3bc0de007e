/-! # Bytes and words

The eight-bit and sixteen-bit values of the machine, and the two ways between
them: a word splits into a high and a low byte, and two bytes join into a word.
Joining and splitting undo each other. -/

namespace Sm83

/-- An eight-bit value. -/
abbrev Byte := BitVec 8

/-- A sixteen-bit value: an address, or the contents of two registers. -/
abbrev Word := BitVec 16

/-- The word with the given upper and lower halves. -/
def joinBytes (high low : Byte) : Word := high ++ low

/-- The upper half of a word. -/
def highByte (word : Word) : Byte := word.extractLsb' 8 8

/-- The lower half of a word. -/
def lowByte (word : Word) : Byte := word.setWidth 8

theorem toNat_joinBytes (high low : Byte) :
    (joinBytes high low).toNat = 256 * high.toNat + low.toNat := by
  rw [joinBytes, BitVec.toNat_append, ← Nat.shiftLeft_add_eq_or_of_lt low.isLt,
    Nat.shiftLeft_eq]
  omega

theorem toNat_highByte (word : Word) : (highByte word).toNat = word.toNat / 256 := by
  have := word.isLt
  simp only [highByte, BitVec.extractLsb'_toNat, Nat.shiftRight_eq_div_pow]
  omega

theorem toNat_lowByte (word : Word) : (lowByte word).toNat = word.toNat % 256 := by
  simp [lowByte]

@[simp] theorem highByte_joinBytes (high low : Byte) : highByte (joinBytes high low) = high := by
  apply BitVec.eq_of_toNat_eq
  have := low.isLt
  rw [toNat_highByte, toNat_joinBytes]
  omega

@[simp] theorem lowByte_joinBytes (high low : Byte) : lowByte (joinBytes high low) = low := by
  apply BitVec.eq_of_toNat_eq
  have := low.isLt
  rw [toNat_lowByte, toNat_joinBytes]
  omega

@[simp] theorem joinBytes_highByte_lowByte (word : Word) :
    joinBytes (highByte word) (lowByte word) = word := by
  apply BitVec.eq_of_toNat_eq
  rw [toNat_joinBytes, toNat_highByte, toNat_lowByte]
  omega

end Sm83
