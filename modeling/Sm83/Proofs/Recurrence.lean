import Mathlib.Data.Fintype.Pigeonhole
import Sm83.Proofs.Lockstep
import Sm83.Proofs.Splitting

/-!
# Runs that never end

Whether a step succeeds, and where the next one starts, depends on the program counter alone. There
are 65536 of them, so that one recurs within as many steps, and from there on the run repeats
itself. Main statement: a program whose first 65536 steps succeed never fails, and no smaller number
of steps decides this.
-/

namespace Sm83

namespace Cpu

variable {cpu : Cpu} {bus : Bus}

/-- A run that goes on has gone on before. -/
theorem going_of_le {count limit : Nat} (le : count ≤ limit)
    (going : (cpu.run bus limit).fault = none) : (cpu.run bus count).fault = none := by
  induction le with
  | refl => exact going
  | step _ ih =>
      rw [run_succ] at going
      exact ih (Run.going_of_advance going)

theorem fault_run_add {count : Nat} (going : (cpu.run bus count).fault = none) (more : Nat) :
    (cpu.run bus (count + more)).fault = ((cpu.run bus count).cpu.run bus more).fault := by
  rw [run, Run.proceed_add]
  exact (Run.resumed_run going bus more).fault

/-- From states with the same program counter on, a run fails after the same number of steps. -/
theorem fault_run_add_eq {first second : Nat} (going : (cpu.run bus first).fault = none)
    (still : (cpu.run bus second).fault = none)
    (same : (cpu.run bus first).cpu.pc = (cpu.run bus second).cpu.pc) (more : Nat) :
    (cpu.run bus (first + more)).fault = (cpu.run bus (second + more)).fault := by
  rw [fault_run_add going, fault_run_add still]
  exact (Run.sameControl_run bus more same).fault

/-- A run that comes back to a program counter never fails. -/
theorem going_of_recurs {first second : Nat} (before : first < second)
    (going : (cpu.run bus second).fault = none)
    (same : (cpu.run bus first).cpu.pc = (cpu.run bus second).cpu.pc) (limit : Nat) :
    (cpu.run bus limit).fault = none := by
  -- What lies behind the second visit is what lies behind the first one, which is nearer.
  induction limit using Nat.strong_induction_on with
  | _ limit ih =>
      by_cases inside : limit ≤ second
      · exact going_of_le inside going
      · obtain ⟨more, rfl⟩ := Nat.exists_eq_add_of_le (Nat.le_of_not_le inside)
        rw [← fault_run_add_eq (going_of_le (Nat.le_of_lt before) going) going same]
        exact ih (first + more) (by omega)

/-- Of 65537 states two have the same program counter. -/
theorem exists_recurs (cpu : Cpu) (bus : Bus) :
    ∃ first second, first < second ∧ second ≤ 65536 ∧
      (cpu.run bus first).cpu.pc = (cpu.run bus second).cpu.pc := by
  have fewer : Fintype.card (Fin 65536) < Fintype.card (Fin 65537) := by
    rw [Fintype.card_fin, Fintype.card_fin]
    decide
  obtain ⟨one, other, different, equal⟩ := Fintype.exists_ne_map_eq_of_card_lt
    (fun index : Fin 65537 => (cpu.run bus index).cpu.pc.toFin) fewer
  have same : (cpu.run bus one).cpu.pc = (cpu.run bus other).cpu.pc := BitVec.toFin_inj.mp equal
  obtain before | after := Nat.lt_or_gt_of_ne (Fin.val_ne_of_ne different)
  · exact ⟨one, other, before, by omega, same⟩
  · exact ⟨other, one, after, by omega, same.symm⟩

/-- Where a run goes on, the step to be taken succeeds. -/
theorem exists_progress_of_going {limit : Nat} (going : (cpu.run bus (limit + 1)).fault = none) :
    ∃ progress, ((cpu.run bus limit).cpu.step bus).value = .ok progress ∧
      (cpu.run bus (limit + 1)).cpu = progress.cpu := by
  have before := going_of_le (Nat.le_succ limit) going
  rw [run_succ] at going ⊢
  cases decoded : (bus.opcodeAt (cpu.run bus limit).cpu.pc).decode with
  | none =>
      rw [Run.advance_of_none before decoded] at going
      cases going
  | some operation =>
      rw [Run.advance_of_some before decoded]
      exact ⟨_, value_step_of_some decoded, rfl⟩

/-- Over instructions of one byte, the program counter goes through all addresses. -/
theorem run_of_single_bytes {count : Nat}
    (single : ∀ index < count, ∃ operation : Operation, operation.length = 1 ∧
      (bus.opcodeAt (cpu.pc + BitVec.ofNat 16 index)).decode = some operation) :
    (cpu.run bus count).fault = none ∧
      (cpu.run bus count).cpu.pc = cpu.pc + BitVec.ofNat 16 count := by
  induction count with
  | zero => exact ⟨rfl, (BitVec.add_zero _).symm⟩
  | succ count ih =>
      obtain ⟨going, reached⟩ := ih fun index inside => single index (Nat.lt_succ_of_lt inside)
      obtain ⟨operation, length, found⟩ := single count (Nat.lt_succ_self count)
      rw [← reached] at found
      rw [run_succ, Run.advance_of_some going found]
      refine ⟨rfl, ?_⟩
      rw [perform, reached, length, BitVec.add_assoc, ← BitVec.ofNat_add]

end Cpu

/-- The opcodes of a memory in which one byte differs from zero. -/
theorem Memory.opcodeAt_write_blank (position : Word) {byte : Byte} (alone : byte ≠ extension)
    (address : Word) :
    Bus.opcodeAt (blank.write position byte).read address =
      .base (if address = position then byte else 0) := by
  have unextended : (if address = position then byte else 0) ≠ extension := by
    split
    · exact alone
    · decide
  rw [Bus.opcodeAt, Bus.value_readOpcode, read_write, read_blank, if_neg unextended]

/-- From the first address on, a gap at the last one is met in the last of 65536 steps. -/
theorem Cpu.run_to_last_address {cpu : Cpu} (start : cpu.pc = 0) :
    let bus : Bus := (Memory.blank.write 0xFFFF 0xD3).read
    (cpu.run bus 65535).fault = none ∧
      (cpu.run bus 65536).fault = some (.unimplemented 0xD3 0xFFFF) := by
  intro bus
  have opcodes (address : Word) :
      bus.opcodeAt address = .base (if address = 0xFFFF then 0xD3 else 0) :=
    Memory.opcodeAt_write_blank 0xFFFF (by decide) address
  have single : ∀ index < 65535, ∃ operation : Operation, operation.length = 1 ∧
      (bus.opcodeAt (cpu.pc + BitVec.ofNat 16 index)).decode = some operation := by
    intro index inside
    have before : cpu.pc + BitVec.ofNat 16 index ≠ 0xFFFF := by
      intro last
      have number : index % 65536 = 65535 := by simpa [start] using congrArg BitVec.toNat last
      omega
    refine ⟨.nop, rfl, ?_⟩
    rw [opcodes, if_neg before]
    rfl
  obtain ⟨going, reached⟩ := run_of_single_bytes single
  have last : (cpu.run bus 65535).cpu.pc = 0xFFFF := by
    rw [reached, start]
    rfl
  have opcode : bus.opcodeAt (cpu.run bus 65535).cpu.pc = .base 0xD3 := by
    rw [opcodes, if_pos last]
  have gap : (bus.opcodeAt (cpu.run bus 65535).cpu.pc).decode = none := by
    rw [opcode]
    rfl
  refine ⟨going, ?_⟩
  have onward : cpu.run bus 65536 = (cpu.run bus 65535).advance bus := run_succ cpu bus 65535
  rw [onward, Run.advance_of_none going gap, opcode, last]
  rfl

/-- If so many steps succeed as there are program counters, then every step of every run does. One
less is not enough. -/
theorem Cpu.run_decides_faults :
    (∀ (cpu : Cpu) (bus : Bus) (total : BitVec 64), (cpu.run bus 65536).outcome = .ok total →
        ∀ limit, (∃ spent, (cpu.run bus limit).outcome = .ok spent) ∧
          ∃ progress, ((cpu.run bus limit).cpu.step bus).value = .ok progress ∧
            (cpu.run bus (limit + 1)).cpu = progress.cpu) ∧
      ∃ (cpu : Cpu) (memory : Memory) (total : BitVec 64) (fault : Fault),
        (cpu.run memory.read 65535).outcome = .ok total ∧
          (cpu.run memory.read 65536).outcome = .error fault := by
  constructor
  · intro cpu bus total outcome limit
    obtain ⟨enough, -⟩ := Run.outcome_eq_ok_iff.mp outcome
    obtain ⟨first, second, before, inside, same⟩ := cpu.exists_recurs bus
    have going := going_of_recurs before (going_of_le inside enough) same
    exact ⟨⟨_, Run.outcome_of_fault_eq_none (going limit)⟩,
      exists_progress_of_going (going (limit + 1))⟩
  · let cpu : Cpu := ⟨{}, 0⟩
    have start : cpu.pc = 0 := rfl
    obtain ⟨going, ended⟩ := run_to_last_address start
    exact ⟨cpu, _, _, _, Run.outcome_of_fault_eq_none going, Run.outcome_of_fault_eq_some ended⟩

/-- Memory with a single decimal adjustment among instructions without effect. -/
theorem Cpu.run_decides_faults_around_adjustment :
    let cpu : Cpu := ⟨{ a := 0x9A }, 0x1234⟩
    let bus : Bus := (Memory.blank.write 0x8000 0x27).read
    (∃ total, (cpu.run bus 65536).outcome = .ok total) ∧
      (∃ total, (cpu.run bus 1000000000000).outcome = .ok total) ∧
      ∃ progress, ((cpu.run bus 1000000000000).cpu.step bus).value = .ok progress := by
  intro cpu bus
  have single : ∀ index < 65536, ∃ operation : Operation, operation.length = 1 ∧
      (bus.opcodeAt (cpu.pc + BitVec.ofNat 16 index)).decode = some operation := by
    intro index _
    rw [Memory.opcodeAt_write_blank 0x8000 (by decide)]
    split
    · exact ⟨.adjustDecimal, rfl, rfl⟩
    · exact ⟨.nop, rfl, rfl⟩
  obtain ⟨going, -⟩ := run_of_single_bytes single
  have outcome := Run.outcome_of_fault_eq_none going
  obtain ⟨decides, -⟩ := Cpu.run_decides_faults
  obtain ⟨total, progress, stepped, -⟩ := decides cpu bus _ outcome 1000000000000
  exact ⟨⟨_, outcome⟩, total, progress, stepped⟩

end Sm83
