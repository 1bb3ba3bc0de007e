import Sm83.Fault

/-! # Memory

One byte for each of the 65536 addresses of the bus. Reading and writing by a word
cannot miss. Wider addresses are checked. Main statement: what a reading gives after a
writing. -/

namespace Sm83

/-- The number of addresses on the bus. -/
abbrev memorySize : Nat := 0x10000

/-- The bytes at all addresses. -/
structure Memory where
  cells : Vector Byte memorySize
  deriving DecidableEq

namespace Memory

/-- Memory filled with zeros. -/
def blank : Memory := ⟨Vector.replicate memorySize 0⟩

/-- The byte at an address. -/
def read (memory : Memory) (address : Word) : Byte :=
  memory.cells.get address.toFin

/-- Replaces the byte at an address. -/
def write (memory : Memory) (address : Word) (byte : Byte) : Memory :=
  ⟨memory.cells.set address.toNat byte address.isLt⟩

/-- The byte at a wider address. -/
def readByte (memory : Memory) (address : Nat) : Except Fault Byte :=
  if inside : address < memorySize then .ok memory.cells[address]
  else .error (.outOfRange address)

/-- Replaces the byte at a wider address. -/
def writeByte (memory : Memory) (address : Nat) (byte : Byte) : Except Fault Memory :=
  if inside : address < memorySize then .ok ⟨memory.cells.set address byte⟩
  else .error (.outOfRange address)

/-- The written form of memory. -/
def describe (_ : Memory) : String := Text.record "Memory" [("size", Nat.repr memorySize)]

@[simp] theorem read_blank (address : Word) : blank.read address = 0 := by
  simp [blank, read, Vector.get]

theorem getElem?_cells (memory : Memory) (address : Word) :
    memory.cells[address.toNat]? = some (memory.read address) :=
  getElem?_pos memory.cells address.toNat address.isLt

theorem read_write (memory : Memory) (address other : Word) (byte : Byte) :
    (memory.write address byte).read other =
      if other = address then byte else memory.read other := by
  apply Option.some.inj
  rw [← getElem?_cells, write, Vector.getElem?_set, getElem?_cells]
  by_cases same : other = address
  · simp [same]
  · simp [same, BitVec.toNat_inj, Ne.symm same]

/-- A wider address inside memory is a word. -/
theorem readByte_toNat (memory : Memory) (address : Word) :
    memory.readByte address.toNat = .ok (memory.read address) :=
  dif_pos (c := address.toNat < memorySize) address.isLt

theorem writeByte_toNat (memory : Memory) (address : Word) (byte : Byte) :
    memory.writeByte address.toNat byte = .ok (memory.write address byte) :=
  dif_pos (c := address.toNat < memorySize) address.isLt

theorem readByte_of_le (memory : Memory) {address : Nat} (outside : memorySize ≤ address) :
    memory.readByte address = .error (.outOfRange address) :=
  dif_neg (Nat.not_lt.mpr outside)

theorem writeByte_of_le (memory : Memory) {address : Nat} (outside : memorySize ≤ address)
    (byte : Byte) : memory.writeByte address byte = .error (.outOfRange address) :=
  dif_neg (Nat.not_lt.mpr outside)

end Memory

end Sm83
