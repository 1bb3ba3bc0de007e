import Sm83.Registers

/-! # The processor

Its state: the registers and the program counter. A snapshot lists the same contents as
plain bytes. Main statement: the snapshot of a state restores that state. -/

namespace Sm83

/-- Register contents as plain bytes, with a program counter. -/
structure Snapshot where
  a : Byte := 0
  f : Byte := 0
  b : Byte := 0
  c : Byte := 0
  d : Byte := 0
  e : Byte := 0
  h : Byte := 0
  l : Byte := 0
  pc : Word := 0
  deriving DecidableEq, Repr, Inhabited

/-- The state of the processor. -/
structure Cpu where
  registers : Registers := {}
  pc : Word := 0
  deriving DecidableEq, Repr, Inhabited

namespace Snapshot

/-- The state in which the boot program hands over to a cartridge. -/
def postBoot : Snapshot where
  a := 0x01
  f := 0xB0
  b := 0x00
  c := 0x13
  d := 0x00
  e := 0xD8
  h := 0x01
  l := 0x4D
  pc := 0x0100

/-- The snapshot of what registers read as. -/
def ofReadings (read : Register → Byte) (pc : Word) : Snapshot where
  a := read .a
  f := read .f
  b := read .b
  c := read .c
  d := read .d
  e := read .e
  h := read .h
  l := read .l
  pc := pc

/-- The register contents that a snapshot lists. -/
def registers (snapshot : Snapshot) : Registers where
  a := snapshot.a
  b := snapshot.b
  c := snapshot.c
  d := snapshot.d
  e := snapshot.e
  h := snapshot.h
  l := snapshot.l
  flags := .ofByte snapshot.f

/-- The written form of a snapshot. -/
def describe (snapshot : Snapshot) : String :=
  Text.record "InitialState"
    [ ("a", Nat.repr snapshot.a.toNat), ("f", Nat.repr snapshot.f.toNat),
      ("b", Nat.repr snapshot.b.toNat), ("c", Nat.repr snapshot.c.toNat),
      ("d", Nat.repr snapshot.d.toNat), ("e", Nat.repr snapshot.e.toNat),
      ("h", Nat.repr snapshot.h.toNat), ("l", Nat.repr snapshot.l.toNat),
      ("pc", Nat.repr snapshot.pc.toNat) ]

end Snapshot

namespace Cpu

/-- The state that a snapshot describes. -/
def ofSnapshot (snapshot : Snapshot) : Cpu := ⟨snapshot.registers, snapshot.pc⟩

/-- The snapshot of a state. -/
def snapshot (cpu : Cpu) : Snapshot := .ofReadings cpu.registers.get cpu.pc

@[simp] theorem ofSnapshot_snapshot (cpu : Cpu) : ofSnapshot cpu.snapshot = cpu := by
  simp [ofSnapshot, snapshot, Snapshot.ofReadings, Snapshot.registers, Registers.get]

/-- The written form of a state. -/
def describe (cpu : Cpu) : String :=
  Text.record "Cpu"
    [("regs", cpu.registers.describe), ("pc", Text.markedHex 4 cpu.pc.toNat)]

end Cpu

end Sm83
