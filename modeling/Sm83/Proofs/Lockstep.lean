import Sm83.Proofs.Advance

/-!
# Runs in lockstep

Two processors at the same address that see the same bus execute the same instructions,
whatever their registers hold: neither the next address nor the cycles nor a fault nor
an address read depends on register contents. Main statement: their runs of any length
agree in all of these.
-/

namespace Sm83

namespace Run

/-- Agreement of two runs in everything but the register contents. -/
structure SameControl (run other : Run) : Prop where
  pc : run.cpu.pc = other.cpu.pc
  cycles : run.cycles = other.cycles
  fault : run.fault = other.fault
  reads : run.reads = other.reads

theorem SameControl.outcome {run other : Run} (same : SameControl run other) :
    run.outcome = other.outcome := by
  rw [Run.outcome, Run.outcome, same.fault, same.cycles]

end Run

theorem Cpu.reads_step_of_pc_eq (bus : Bus) {cpu other : Cpu} (same : cpu.pc = other.pc) :
    (cpu.step bus).reads = (other.step bus).reads := by
  cases decoded : (bus.opcodeAt cpu.pc).decode with
  | none =>
      have gap : (bus.opcodeAt other.pc).decode = none := same ▸ decoded
      rw [reads_step_of_none decoded, reads_step_of_none gap, same]
  | some operation =>
      have found : (bus.opcodeAt other.pc).decode = some operation := same ▸ decoded
      rw [reads_step_of_some decoded, reads_step_of_some found, same]

namespace Run

/-- One more step keeps two runs in lockstep. -/
theorem SameControl.advance (bus : Bus) {run other : Run} (same : SameControl run other) :
    SameControl (run.advance bus) (other.advance bus) := by
  cases ended : run.fault with
  | some fault =>
      have otherEnded : other.fault = some fault := same.fault ▸ ended
      rw [advance_of_fault ended, advance_of_fault otherEnded]
      exact same
  | none =>
      have going : other.fault = none := same.fault ▸ ended
      have reads : (run.advance bus).reads = (other.advance bus).reads := by
        rw [reads_advance ended, reads_advance going, same.reads,
          Cpu.reads_step_of_pc_eq bus same.pc]
      cases decoded : (bus.opcodeAt run.cpu.pc).decode with
      | none =>
          have gap : (bus.opcodeAt other.cpu.pc).decode = none := same.pc ▸ decoded
          refine ⟨?_, ?_, ?_, reads⟩
          · simp only [advance_of_none ended decoded, advance_of_none going gap, same.pc]
          · simp only [advance_of_none ended decoded, advance_of_none going gap, same.cycles]
          · simp only [advance_of_none ended decoded, advance_of_none going gap, same.pc]
      | some operation =>
          have found : (bus.opcodeAt other.cpu.pc).decode = some operation := same.pc ▸ decoded
          refine ⟨?_, ?_, ?_, reads⟩
          · simp only [advance_of_some ended decoded, advance_of_some going found, Cpu.perform,
              same.pc]
          · simp only [advance_of_some ended decoded, advance_of_some going found, same.cycles]
          · simp only [advance_of_some ended decoded, advance_of_some going found]

/-- Two processors at the same address run in lockstep. -/
theorem sameControl_run (bus : Bus) (limit : Nat) {cpu other : Cpu} (same : cpu.pc = other.pc) :
    SameControl (cpu.run bus limit) (other.run bus limit) :=
  proceed_related (fun _ _ together => together.advance bus) limit ⟨same, rfl, rfl, rfl⟩

end Run

/-- Register contents decide neither the outcome of a run nor the addresses that it reads nor
where it ends. -/
theorem Cpu.run_agrees_of_pc_eq (bus : Bus) (limit : Nat) {cpu other : Cpu}
    (same : cpu.pc = other.pc) :
    ((∃ total, (cpu.run bus limit).outcome = .ok total ∧
          (other.run bus limit).outcome = .ok total) ∨
        ∃ opcode pc, (cpu.run bus limit).outcome = .error (.unimplemented opcode pc) ∧
          (other.run bus limit).outcome = .error (.unimplemented opcode pc)) ∧
      (cpu.run bus limit).reads = (other.run bus limit).reads ∧
      (cpu.run bus limit).cpu.pc = (other.run bus limit).cpu.pc := by
  have together := Run.sameControl_run bus limit same
  refine ⟨?_, together.reads, together.pc⟩
  rw [← together.outcome]
  cases ended : (cpu.run bus limit).fault with
  | none =>
      have reached := Run.outcome_of_fault_eq_none ended
      exact .inl ⟨_, reached, reached⟩
  | some fault =>
      obtain ⟨-, rfl⟩ := Run.endsAtGap_run bus limit cpu fault ended
      have reached := Run.outcome_of_fault_eq_some ended
      exact .inr ⟨_, _, reached, reached⟩

/-- Two accumulators make different sums, but the same gap in the opcode map ends both runs. -/
theorem Cpu.run_agrees_of_pc_eq_at_gap :
    let bus : Bus := fun address => if address = 3 then 0xD3 else 0xCE
    let cpu : Cpu := ⟨{ a := 0x80, flags := { carry := true } }, 0xFFFF⟩
    let other : Cpu := ⟨{ a := 0x31 }, 0xFFFF⟩
    (cpu.run bus 9).cpu.registers ≠ (other.run bus 9).cpu.registers ∧
      (cpu.run bus 9).outcome = .error (.unimplemented 0xD3 3) ∧
      (other.run bus 9).outcome = .error (.unimplemented 0xD3 3) ∧
      (cpu.run bus 9).reads = (other.run bus 9).reads ∧
      (cpu.run bus 9).cpu.pc = (other.run bus 9).cpu.pc := by
  intro bus cpu other
  have different : (cpu.run bus 9).cpu.registers ≠ (other.run bus 9).cpu.registers := by
    decide +kernel
  have stopped : (cpu.run bus 9).fault = some (.unimplemented 0xD3 3) := by decide +kernel
  have outcome := Run.outcome_of_fault_eq_some stopped
  have same : cpu.pc = other.pc := rfl
  obtain ⟨ended, reads, pc⟩ := Cpu.run_agrees_of_pc_eq bus 9 same
  refine ⟨different, outcome, ?_, reads, pc⟩
  rw [outcome] at ended
  obtain ⟨total, impossible, -⟩ | ⟨opcode, address, mine, others⟩ := ended
  · cases impossible
  · rw [others, mine]

end Sm83
