import Sm83.Memory.Basic
import Sm83.Trace

/-! # Stretches of memory

Bytes at successive addresses. A block is copied as a whole or not at all. The longest
stretches of one byte other than zero are a summary of memory. Main statements: what a
copy comes to, and what a reading gives after it. -/

namespace Sm83

/-! ## Blocks -/

/-- Wider addresses are numbers below this one. -/
def addressLimit : Nat := 0x10000000000000000

namespace Memory

/-- Replaces the bytes from an address on. -/
def store (memory : Memory) (origin : Nat) : List Byte → Memory
  | [] => memory
  | byte :: rest => store ⟨memory.cells.setIfInBounds origin byte⟩ (origin + 1) rest

/-- Copies a block to the addresses from one on. A block that does not fit is refused with the
address before its end, or with the last wide address if it reaches beyond that. -/
def load (memory : Memory) (origin : Nat) (block : List Byte) : Traced (Except Fault Memory) :=
  let stop := origin + block.length
  if stop ≥ addressLimit then return .error (.outOfRange (addressLimit - 1))
  else if stop > memorySize then return .error (.outOfRange (stop - 1))
  else do
    Traced.log (.loaded origin block.length)
    return .ok (memory.store origin block)

/-- Writing a byte is storing a block of one. -/
theorem writeByte_of_lt (memory : Memory) {address : Nat} (inside : address < memorySize)
    (byte : Byte) : memory.writeByte address byte = .ok (memory.store address [byte]) := by
  have same : memory.cells.set address byte inside = memory.cells.setIfInBounds address byte := by
    rw [← Vector.toList_inj, Vector.toList_set, Vector.toList_setIfInBounds]
  rw [writeByte, dif_pos inside, same]
  rfl

theorem write_eq_store (memory : Memory) (address : Word) (byte : Byte) :
    memory.write address byte = memory.store address.toNat [byte] := by
  apply Except.ok.inj
  rw [← writeByte_toNat, writeByte_of_lt memory address.isLt]

/-- A block that fits is copied. -/
theorem value_load_of_fits (memory : Memory) {origin : Nat} {block : List Byte}
    (fits : origin + block.length ≤ memorySize) :
    (memory.load origin block).value = .ok (memory.store origin block) := by
  have below : ¬ origin + block.length ≥ addressLimit := by
    simp only [addressLimit, memorySize] at fits ⊢
    omega
  rw [load, if_neg below, if_neg (by omega)]
  rfl

/-- A block that does not fit is refused. -/
theorem value_load_of_overruns (memory : Memory) {origin : Nat} {block : List Byte}
    (overruns : memorySize < origin + block.length) :
    (memory.load origin block).value =
      .error (.outOfRange (min (origin + block.length) addressLimit - 1)) := by
  rw [load]
  by_cases wide : origin + block.length ≥ addressLimit
  · rw [if_pos wide, Nat.min_eq_right wide]
    rfl
  · rw [if_neg wide, if_pos overruns, Nat.min_eq_left (by omega)]
    rfl

/-- A stored block covers its own addresses and no other. -/
theorem read_store (memory : Memory) (origin : Nat) (block : List Byte) (address : Word) :
    (memory.store origin block).read address =
      if origin ≤ address.toNat then
        block[address.toNat - origin]?.getD (memory.read address)
      else memory.read address := by
  induction block generalizing memory origin with
  | nil => simp [store]
  | cons byte rest ih =>
      have first : (Memory.mk (memory.cells.setIfInBounds origin byte)).read address =
          if origin = address.toNat then byte else memory.read address := by
        apply Option.some.inj
        rw [← getElem?_cells, Vector.getElem?_setIfInBounds, getElem?_cells]
        by_cases same : origin = address.toNat
        · simp [same, show address.toNat < memorySize from address.isLt]
        · simp [same]
      rw [store, ih, first]
      by_cases below : origin < address.toNat
      · have shift : address.toNat - origin = address.toNat - (origin + 1) + 1 := by omega
        simp [shift, Nat.le_of_lt below, Nat.ne_of_lt below, Nat.succ_le_of_lt below]
      · by_cases same : origin = address.toNat
        · rw [if_neg (by omega), if_pos same, if_pos (Nat.le_of_eq same), same, Nat.sub_self]
          rfl
        · simp [same, show ¬ origin ≤ address.toNat by omega,
            show ¬ origin + 1 ≤ address.toNat by omega]

end Memory

/-! ## Equal bytes -/

/-- Equal bytes at successive addresses. -/
structure Stretch where
  address : Nat
  value : Byte
  length : Nat
  deriving DecidableEq, Repr

namespace Stretch

/-- Adds the byte at an address to the stretches below it, the nearest in front. -/
def extend (stretches : List Stretch) (byte : Byte) (address : Nat) : List Stretch :=
  if byte = 0 then stretches
  else
    match stretches with
    | nearest :: rest =>
        if nearest.value = byte ∧ nearest.address + nearest.length = address then
          { nearest with length := nearest.length + 1 } :: rest
        else ⟨address, byte, 1⟩ :: stretches
    | [] => [⟨address, byte, 1⟩]

end Stretch

/-- The stretches of memory, by ascending address. -/
def Memory.stretches (memory : Memory) : List Stretch :=
  (memory.cells.toList.zipIdx.foldl (fun done (byte, address) => Stretch.extend done byte address)
    []).reverse

end Sm83
