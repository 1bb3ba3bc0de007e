import Sm83.Trace

/-! # The bus

A processor reads bytes at addresses, and sees opcodes and immediate values as bytes at
successive addresses. Main statements: which value such a reading gives, and that it reads
each of its addresses once, in ascending order. -/

namespace Sm83

/-- What a processor reads from: a byte at each address. -/
abbrev Bus := Word → Byte

/-- Successive addresses, going round at the end of the bus. -/
def addresses (start : Word) (count : Nat) : List Word :=
  (List.range count).map fun index => start + BitVec.ofNat 16 index

@[simp] theorem length_addresses (start : Word) (count : Nat) :
    (addresses start count).length = count := by
  simp [addresses]

theorem addresses_add (start : Word) (first second : Nat) :
    addresses start (first + second) =
      addresses start first ++ addresses (start + BitVec.ofNat 16 first) second := by
  simp [addresses, List.range_add, BitVec.ofNat_add, BitVec.add_assoc]

namespace Bus

/-- Reads the byte at an address. -/
def read (bus : Bus) (address : Word) : Traced Byte := ⟨bus address, [.read address]⟩

/-- Reads the opcode at an address. -/
def readOpcode (bus : Bus) (address : Word) : Traced Opcode := do
  let first ← bus.read address
  if first = extension then
    let second ← bus.read (address + 1)
    return .extended second
  else
    return .base first

/-- Reads an immediate value at an address, the lower byte first. -/
def readImmediate (bus : Bus) (address : Word) : Immediate → Traced Word
  | .absent => return 0
  | .byte => do
      let low ← bus.read address
      return joinBytes 0 low
  | .word => do
      let low ← bus.read address
      let high ← bus.read (address + 1)
      return joinBytes high low

@[simp] theorem value_read (bus : Bus) (address : Word) :
    (bus.read address).value = bus address :=
  rfl

@[simp] theorem events_read (bus : Bus) (address : Word) :
    (bus.read address).events = [.read address] :=
  rfl

theorem value_readOpcode (bus : Bus) (address : Word) :
    (bus.readOpcode address).value =
      if bus address = extension then .extended (bus (address + 1)) else .base (bus address) := by
  by_cases extended : bus address = extension <;> simp [readOpcode, extended]

/-- An opcode is read byte by byte. -/
theorem events_readOpcode (bus : Bus) (address : Word) :
    (bus.readOpcode address).events =
      (addresses address (bus.readOpcode address).value.bytes.length).map .read := by
  by_cases extended : bus address = extension <;>
    simp [readOpcode, extended, Opcode.bytes, addresses, List.range_succ]

/-- An immediate value is read byte by byte. -/
theorem events_readImmediate (bus : Bus) (address : Word) (kind : Immediate) :
    (bus.readImmediate address kind).events = (addresses address kind.size).map .read := by
  cases kind <;> simp [readImmediate, Immediate.size, addresses, List.range_succ]

end Bus

end Sm83
