import Sm83.Proofs.Fetch

/-!
# Relocation

Nothing that a processor does depends on where its program stands. If all bytes move by one
offset, going round at the end of the bus, and the program counter moves with them, then every
step does the same as before. Main statement: runs of any length end alike, shifted by the
offset.
-/

namespace Sm83

/-- The same fault at an address moved by an offset. -/
def Fault.shift (offset : Word) : Fault → Fault
  | .unimplemented opcode pc => .unimplemented opcode (pc + offset)
  | fault => fault

variable {bus moved : Bus} {offset : Word}

theorem addresses_shift (start offset : Word) (count : Nat) :
    addresses (start + offset) count = (addresses start count).map (· + offset) := by
  rw [addresses, addresses, List.map_map]
  apply List.map_congr_left
  intro index _
  simp only [Function.comp_apply]
  ac_rfl

/-- Moved bytes stand at moved addresses. -/
theorem Bus.Holds.shift (same : ∀ address, moved (address + offset) = bus address)
    {start : Word} {bytes : List Byte} (held : bus.Holds start bytes) :
    moved.Holds (start + offset) bytes := by
  rw [Holds, addresses_shift, List.map_map]
  exact (List.map_congr_left fun address _ => same address).trans held

namespace Run

/-- Two runs at two places, an offset apart. -/
structure Shifted (offset : Word) (run other : Run) : Prop where
  registers : other.cpu.registers = run.cpu.registers
  pc : other.cpu.pc = run.cpu.pc + offset
  cycles : other.cycles = run.cycles
  fault : other.fault = run.fault.map (Fault.shift offset)

/-- One more step keeps two runs an offset apart. -/
theorem Shifted.advance (same : ∀ address, moved (address + offset) = bus address)
    {run other : Run} (shifted : Shifted offset run other) :
    Shifted offset (run.advance bus) (other.advance moved) := by
  cases ended : run.fault with
  | some fault =>
      have otherEnded : other.fault = some (fault.shift offset) := by
        rw [shifted.fault, ended, Option.map_some]
      rw [advance_of_fault ended, advance_of_fault otherEnded]
      exact shifted
  | none =>
      have going : other.fault = none := by rw [shifted.fault, ended, Option.map_none]
      -- What this step reads stands at the other program counter too, so both decode alike.
      have held : moved.Holds other.cpu.pc (bus.code run.cpu.pc) := by
        rw [shifted.pc]
        exact (Bus.holds_code bus run.cpu.pc).shift same
      have opcode := Bus.opcodeAt_of_holds_code held
      cases decoded : (bus.opcodeAt run.cpu.pc).decode with
      | none =>
          have gap : (moved.opcodeAt other.cpu.pc).decode = none := opcode ▸ decoded
          rw [advance_of_none ended decoded, advance_of_none going gap, opcode, shifted.pc]
          exact ⟨shifted.registers, shifted.pc, shifted.cycles, rfl⟩
      | some operation =>
          have found : (moved.opcodeAt other.cpu.pc).decode = some operation := opcode ▸ decoded
          have immediate := Bus.immediateAt_of_holds_code decoded held
          rw [advance_of_some ended decoded, advance_of_some going found, immediate]
          refine ⟨?_, ?_, ?_, rfl⟩
          · simp only [Cpu.perform, shifted.registers]
          · simp only [Cpu.perform, shifted.pc]
            ac_rfl
          · simp only [shifted.cycles]

/-- Two processors with the same registers, an offset apart like their programs, stay so. -/
theorem shifted_run (same : ∀ address, moved (address + offset) = bus address) (limit : Nat)
    {cpu other : Cpu} (registers : other.registers = cpu.registers)
    (pc : other.pc = cpu.pc + offset) :
    Shifted offset (cpu.run bus limit) (other.run moved limit) :=
  proceed_related (fun _ _ shifted => shifted.advance same) limit ⟨registers, pc, rfl, rfl⟩

end Run

/-- A program runs alike wherever it stands, also across the end of the bus. -/
theorem Cpu.run_shift (bus moved : Bus) (offset : Word)
    (same : ∀ address, moved (address + offset) = bus address) (limit : Nat) (cpu other : Cpu)
    (registers : other.registers = cpu.registers) (pc : other.pc = cpu.pc + offset) :
    (other.run moved limit).cpu.registers = (cpu.run bus limit).cpu.registers ∧
      (other.run moved limit).cpu.pc = (cpu.run bus limit).cpu.pc + offset ∧
      ((∃ total, (cpu.run bus limit).outcome = .ok total ∧
          (other.run moved limit).outcome = .ok total) ∨
        ∃ opcode address, (cpu.run bus limit).outcome = .error (.unimplemented opcode address) ∧
          (other.run moved limit).outcome = .error (.unimplemented opcode (address + offset))) := by
  have shifted := Run.shifted_run same limit registers pc
  refine ⟨shifted.registers, shifted.pc, ?_⟩
  have fault := shifted.fault
  cases ended : (cpu.run bus limit).fault with
  | none =>
      rw [ended, Option.map_none] at fault
      have outcome := Run.outcome_of_fault_eq_none fault
      rw [shifted.cycles] at outcome
      exact .inl ⟨_, Run.outcome_of_fault_eq_none ended, outcome⟩
  | some stopped =>
      obtain ⟨-, rfl⟩ := Run.endsAtGap_run bus limit cpu stopped ended
      rw [ended, Option.map_some, Fault.shift] at fault
      exact .inr ⟨_, _, Run.outcome_of_fault_eq_some ended, Run.outcome_of_fault_eq_some fault⟩

/-- Moved by one, the word to load stands on both sides of the end of the bus, and the gap behind
it ends the run one byte later. -/
theorem Cpu.run_shift_across_end :
    let bus : Bus := fun address =>
      if address = 0xFFFD then 0x21 else if address = 0xFFFE then 0x34
      else if address = 0xFFFF then 0x12 else if address = 0 then 0x76 else 0
    let moved : Bus := fun address => bus (address - 1)
    let cpu : Cpu := ⟨{ a := 0x31, flags := { carry := true } }, 0xFFFD⟩
    let other : Cpu := { cpu with pc := 0xFFFE }
    (cpu.run bus 2).outcome = .error (.unimplemented 0x76 0) ∧
      (other.run moved 2).outcome = .error (.unimplemented 0x76 1) ∧
      (other.run moved 2).cpu.registers =
        { a := 0x31, h := 0x12, l := 0x34, flags := { carry := true } } ∧
      (other.run moved 2).cpu.pc = 1 := by
  intro bus moved cpu other
  have same : ∀ address, moved (address + 1) = bus address := fun address =>
    congrArg bus (BitVec.add_sub_cancel address 1)
  have stopped : (cpu.run bus 2).fault = some (.unimplemented 0x76 0) := by decide +kernel
  have outcome := Run.outcome_of_fault_eq_some stopped
  have reached : (cpu.run bus 2).cpu =
      ⟨{ a := 0x31, h := 0x12, l := 0x34, flags := { carry := true } }, 0⟩ := by decide +kernel
  obtain ⟨registers, pc, ends⟩ := Cpu.run_shift bus moved 1 same 2 cpu other rfl rfl
  rw [reached] at registers pc
  rw [outcome] at ends
  obtain ⟨total, ⟨⟩, -⟩ | ⟨opcode, address, ⟨⟩, ended⟩ := ends
  exact ⟨outcome, ended, registers, pc⟩

end Sm83
