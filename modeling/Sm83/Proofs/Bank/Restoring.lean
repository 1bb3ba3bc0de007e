import Sm83.Proofs.Bank.Agreement

/-!
# Snapshots bring processors back

A snapshot lists the bytes that the registers read as, and the program counter. It brings a bank
back if every byte is one that its register keeps; a flag byte with anything in its lower half would
be lost. Main statement: whatever was done to a processor, its snapshot brings it back, and two
snapshots make one processor only if they agree on all that a processor keeps.
-/

namespace Sm83

namespace Snapshot

/-- Two snapshots agree on all that a processor keeps: on everything but the lower half of the flag
byte. -/
structure AgreesWith (first second : Snapshot) : Prop where
  a : first.a = second.a
  b : first.b = second.b
  c : first.c = second.c
  d : first.d = second.d
  e : first.e = second.e
  h : first.h = second.h
  l : first.l = second.l
  f : first.f.toNat / 16 = second.f.toNat / 16
  pc : first.pc = second.pc

end Snapshot

theorem Flags.ofByte_eq_iff (first second : Byte) :
    ofByte first = ofByte second ↔ first.toNat / 16 = second.toNat / 16 := by
  have keeps (byte : Byte) : (ofByte byte).toByte.toNat = 16 * (byte.toNat / 16) := by
    rw [toByte_ofByte]
    exact Register.toNat_keep_f byte
  constructor
  · intro same
    have bytes := congrArg (fun flags : Flags => flags.toByte.toNat) same
    simp only [keeps] at bytes
    omega
  · intro same
    apply toByte_injective
    apply BitVec.eq_of_toNat_eq
    rw [keeps, keeps, same]

/-! ## Banks -/

namespace BankedCpu

/-- A bank keeps of every byte in a snapshot what the register keeps. -/
theorem bank_ofSnapshot_ofReadings (read : Register → Byte) (pc : Word) (register : Register) :
    (ofSnapshot (.ofReadings read pc)).bank register = register.keep (read register) := by
  cases register <;> rfl

/-- A snapshot brings back a bank that holds nothing but bytes which its registers keep. -/
theorem ofSnapshot_ofReadings_eq_iff (cpu : BankedCpu) :
    ofSnapshot (.ofReadings cpu.bank cpu.pc) = cpu ↔
      ∀ register : Register, register.keep (cpu.bank register) = cpu.bank register := by
  constructor
  · intro same register
    rw [← bank_ofSnapshot_ofReadings, same]
  · intro kept
    have banks : (ofSnapshot (.ofReadings cpu.bank cpu.pc)).bank = cpu.bank := by
      funext register
      rw [bank_ofSnapshot_ofReadings, kept]
    exact congrArg (BankedCpu.mk · cpu.pc) banks

/-- Whatever was done to it, a bank holds nothing but bytes that its registers keep. -/
theorem keep_bank_obeyAll (start : Snapshot) (requests : List (Memory × Command))
    (register : Register) :
    let bank := ((ofSnapshot start).obeyAll requests).bank
    register.keep (bank register) = bank register := by
  rw [Cpu.ofSnapshot_banked, Cpu.obeyAll_banked]
  exact Registers.keep_get _ register

end BankedCpu

/-! ## Processors -/

namespace Cpu

theorem banked_injective {first second : Cpu} (same : first.banked = second.banked) :
    first = second := by
  have registers : first.registers = second.registers := by
    apply Registers.ext_get
    intro register
    exact congrArg (fun cpu : BankedCpu => cpu.bank register) same
  have pc : first.pc = second.pc := congrArg BankedCpu.pc same
  exact congr (congrArg Cpu.mk registers) pc

/-- A processor keeps all of a snapshot but the lower half of the flag byte. -/
theorem ofSnapshot_eq_iff (first second : Snapshot) :
    ofSnapshot first = ofSnapshot second ↔ first.AgreesWith second := by
  simp only [ofSnapshot, Snapshot.registers, Cpu.mk.injEq, Registers.mk.injEq,
    Flags.ofByte_eq_iff]
  constructor
  · rintro ⟨⟨a, b, c, d, e, h, l, f⟩, pc⟩
    exact ⟨a, b, c, d, e, h, l, f, pc⟩
  · rintro ⟨a, b, c, d, e, h, l, f, pc⟩
    exact ⟨⟨a, b, c, d, e, h, l, f⟩, pc⟩

theorem banked_ofSnapshot_eq_iff (first second : Snapshot) :
    BankedCpu.ofSnapshot first = BankedCpu.ofSnapshot second ↔ first.AgreesWith second := by
  rw [ofSnapshot_banked, ofSnapshot_banked, ← ofSnapshot_eq_iff]
  exact ⟨banked_injective, congrArg banked⟩

/-- Whatever was done to a processor, the snapshot of what its registers read as brings it back:
made into a new processor, and put in the place of any other one. From there both run alike. The
same holds of plain bytes, whose type does not keep the flag byte in order. Two snapshots make one
processor if and only if they agree on all but the lower half of the flag byte. -/
theorem snapshot_brings_back (start other : Snapshot) (requests history : List (Memory × Command)) :
    let cpu := (ofSnapshot start).obeyAll requests
    let stranger := (ofSnapshot other).obeyAll history
    let plain := (BankedCpu.ofSnapshot start).obeyAll requests
    let plainStranger := (BankedCpu.ofSnapshot other).obeyAll history
    let taken := Snapshot.ofReadings cpu.registers.get cpu.pc
    let made := ofSnapshot taken
    (made = cpu ∧ ∀ memory : Memory, stranger.obey memory (.reset taken) = cpu) ∧
      (∀ (memory : Memory) (limit : Nat),
        let reset := stranger.obey memory (.reset taken)
        let run := cpu.run memory.read limit
        let madeRun := made.run memory.read limit
        let resetRun := reset.run memory.read limit
        (madeRun.outcome = run.outcome ∧ madeRun.cpu = run.cpu) ∧
          (resetRun.outcome = run.outcome ∧ resetRun.cpu = run.cpu)) ∧
      (Snapshot.ofReadings plain.bank plain.pc = taken ∧ BankedCpu.ofSnapshot taken = plain ∧
        ∀ memory : Memory, plainStranger.obey memory (.reset taken) = plain) ∧
      ∀ first second : Snapshot,
        (ofSnapshot first = ofSnapshot second ↔ first.AgreesWith second) ∧
          (BankedCpu.ofSnapshot first = BankedCpu.ofSnapshot second ↔ first.AgreesWith second) := by
  intro cpu stranger plain plainStranger taken made
  have back : made = cpu := cpu.ofSnapshot_snapshot
  have follows : plain = cpu.banked := by
    rw [← obeyAll_banked, ← ofSnapshot_banked]
  have readings : Snapshot.ofReadings plain.bank plain.pc = taken := by
    rw [follows]
    rfl
  have plainBack : BankedCpu.ofSnapshot taken = plain := by
    rw [← readings, BankedCpu.ofSnapshot_ofReadings_eq_iff]
    exact BankedCpu.keep_bank_obeyAll start requests
  refine ⟨⟨back, fun memory => back⟩, ?runs, ⟨readings, plainBack, fun memory => plainBack⟩,
    fun first second => ⟨ofSnapshot_eq_iff first second, banked_ofSnapshot_eq_iff first second⟩⟩
  case runs =>
    intro memory limit reset run madeRun resetRun
    have sameMade : madeRun = run := congrArg (Cpu.run · memory.read limit) back
    have sameReset : resetRun = run := congrArg (Cpu.run · memory.read limit) back
    exact ⟨⟨congrArg Run.outcome sameMade, congrArg Run.cpu sameMade⟩,
      ⟨congrArg Run.outcome sameReset, congrArg Run.cpu sameReset⟩⟩

/-- A flag byte with a bit in its lower half would not come back. -/
example :
    let stray : BankedCpu := { bank := fun _ => 0x01, pc := 0 }
    (BankedCpu.ofSnapshot (.ofReadings stray.bank stray.pc)).bank .f ≠ stray.bank .f := by
  decide

end Cpu

end Sm83
