import Sm83.Cpu.Run

/-!
# One more step of a run

The bytes at an address, seen as an opcode and as the immediate value behind it, decide
what a step does. The lemmas below say once, for an implemented opcode and for a gap,
what a step returns and which addresses it reads, and lift both to a run that goes on.
-/

namespace Sm83

/-- The opcode at an address. -/
def Bus.opcodeAt (bus : Bus) (address : Word) : Opcode := (bus.readOpcode address).value

/-- The immediate value behind the opcode of an operation. -/
def Bus.immediateAt (bus : Bus) (address : Word) (operation : Operation) : Word :=
  (bus.readImmediate (address + BitVec.ofNat 16 operation.opcode.bytes.length)
    operation.immediate).value

namespace Cpu

variable {cpu : Cpu} {bus : Bus} {operation : Operation}

theorem value_step_of_some (found : (bus.opcodeAt cpu.pc).decode = some operation) :
    (cpu.step bus).value =
      .ok ⟨cpu.perform operation (bus.immediateAt cpu.pc operation), operation.cycles⟩ := by
  rw [step_of_decode_eq_some found, Bus.immediateAt, Opcode.opcode_of_decode found]
  rfl

theorem value_step_of_none (gap : (bus.opcodeAt cpu.pc).decode = none) :
    (cpu.step bus).value = .error (.unimplemented (bus.opcodeAt cpu.pc).number cpu.pc) := by
  rw [step_of_decode_eq_none gap]
  rfl

private theorem filterMap_reads (start : Word) (count : Nat) (record : Record) :
    ((addresses start count).map Event.read ++ [Event.log record]).filterMap Event.address? =
      addresses start count := by
  have hread : Event.address? ∘ Event.read = some := rfl
  simp [List.filterMap_map, hread, Event.address?]

private theorem filterMap_records (start : Word) (count : Nat) (record : Record) :
    ((addresses start count).map Event.read ++ [Event.log record]).filterMap Event.record? =
      [record] := by
  have silent : Event.record? ∘ Event.read = fun _ => none := rfl
  simp [List.filterMap_map, silent, Event.record?]

theorem reads_step_of_some (found : (bus.opcodeAt cpu.pc).decode = some operation) :
    (cpu.step bus).reads = addresses cpu.pc operation.length := by
  rw [step_of_decode_eq_some found]
  exact filterMap_reads _ _ _

theorem reads_step_of_none (gap : (bus.opcodeAt cpu.pc).decode = none) :
    (cpu.step bus).reads = addresses cpu.pc (bus.opcodeAt cpu.pc).bytes.length := by
  rw [step_of_decode_eq_none gap]
  exact filterMap_reads _ _ _

/-- An executed instruction is reported with the registers that it leaves. -/
theorem records_step_of_some (found : (bus.opcodeAt cpu.pc).decode = some operation) :
    (cpu.step bus).records =
      [.executed cpu.pc (bus.opcodeAt cpu.pc) operation
        (cpu.perform operation (bus.immediateAt cpu.pc operation)).registers] := by
  rw [step_of_decode_eq_some found, Bus.immediateAt, Opcode.opcode_of_decode found]
  exact filterMap_records _ _ _

theorem records_step_of_none (gap : (bus.opcodeAt cpu.pc).decode = none) :
    (cpu.step bus).records =
      [.unimplemented cpu.pc (bus.opcodeAt cpu.pc) cpu.registers] := by
  rw [step_of_decode_eq_none gap]
  exact filterMap_records _ _ _

end Cpu

namespace Run

variable {run : Run} {bus : Bus} {operation : Operation}

theorem reads_advance (going : run.fault = none) :
    (run.advance bus).reads = run.reads ++ (run.cpu.step bus).reads := by
  cases value : (run.cpu.step bus).value with
  | ok progress => simp [advance, going, value, reads, Traced.reads]
  | error fault => simp [advance, going, value, reads, Traced.reads]

theorem records_advance (going : run.fault = none) :
    (run.advance bus).records = run.records ++ (run.cpu.step bus).records := by
  cases value : (run.cpu.step bus).value with
  | ok progress => simp [advance, going, value, records, Traced.records]
  | error fault => simp [advance, going, value, records, Traced.records]

theorem advance_of_fault {fault : Fault} (ended : run.fault = some fault) :
    run.advance bus = run :=
  advance_of_isSome (by simp [ended]) bus

/-- An implemented opcode keeps a run going. -/
theorem advance_of_some (going : run.fault = none)
    (found : (bus.opcodeAt run.cpu.pc).decode = some operation) :
    run.advance bus =
      { cpu := run.cpu.perform operation (bus.immediateAt run.cpu.pc operation)
        cycles := run.cycles + BitVec.ofNat 64 operation.cycles
        fault := none
        events := run.events ++ (run.cpu.step bus).events } := by
  simp [advance, going, Cpu.value_step_of_some found]

/-- A gap in the opcode maps ends a run, and the processor stays as it is. -/
theorem advance_of_none (going : run.fault = none)
    (gap : (bus.opcodeAt run.cpu.pc).decode = none) :
    run.advance bus =
      { run with
        fault := some (.unimplemented (bus.opcodeAt run.cpu.pc).number run.cpu.pc)
        events := run.events ++ (run.cpu.step bus).events } := by
  simp [advance, going, Cpu.value_step_of_none gap]

/-- Only a run that goes on can still go on after a step. -/
theorem going_of_advance (still : (run.advance bus).fault = none) : run.fault = none := by
  cases ended : run.fault with
  | none => rfl
  | some fault =>
      rw [advance_of_fault ended, ended] at still
      cases still

/-- What every single step keeps, a run keeps. -/
theorem proceed_induction {motive : Run → Prop}
    (keeps : ∀ run, motive run → motive (run.advance bus)) (limit : Nat)
    (start : motive run) : motive (run.proceed bus limit) := by
  induction limit generalizing run with
  | zero => exact start
  | succ limit ih =>
      rw [proceed_succ]
      exact ih (keeps run start)

/-- What steps of two runs side by side keep, the runs keep. -/
theorem proceed_related {second : Run} {secondBus : Bus} {relation : Run → Run → Prop}
    (keeps : ∀ run second, relation run second →
      relation (run.advance bus) (second.advance secondBus))
    (limit : Nat) (start : relation run second) :
    relation (run.proceed bus limit) (second.proceed secondBus limit) := by
  induction limit generalizing run second with
  | zero => exact start
  | succ limit ih =>
      rw [proceed_succ, proceed_succ]
      exact ih (keeps run second start)

/-- If a run has ended, it stands at a gap in the opcode maps, and its fault names the gap. -/
def EndsAtGap (bus : Bus) (run : Run) : Prop :=
  ∀ fault, run.fault = some fault →
    (bus.opcodeAt run.cpu.pc).decode = none ∧
      fault = .unimplemented (bus.opcodeAt run.cpu.pc).number run.cpu.pc

theorem EndsAtGap.advance (ends : EndsAtGap bus run) : EndsAtGap bus (run.advance bus) := by
  cases ended : run.fault with
  | some fault =>
      rw [advance_of_fault ended]
      exact ends
  | none =>
      intro fault found
      cases decoded : (bus.opcodeAt run.cpu.pc).decode with
      | none =>
          rw [advance_of_none ended decoded] at found ⊢
          exact ⟨decoded, (Option.some.inj found).symm⟩
      | some operation =>
          rw [advance_of_some ended decoded] at found
          cases found

/-- The only fault of a run is a gap in the opcode maps. -/
theorem endsAtGap_run (bus : Bus) (limit : Nat) (cpu : Cpu) :
    EndsAtGap bus (cpu.run bus limit) :=
  proceed_induction (fun _ ends => ends.advance) limit (by simp [EndsAtGap])

theorem outcome_of_fault_eq_none (going : run.fault = none) : run.outcome = .ok run.cycles := by
  simp [outcome, going]

theorem outcome_of_fault_eq_some {fault : Fault} (ended : run.fault = some fault) :
    run.outcome = .error fault := by
  simp [outcome, ended]

theorem outcome_eq_ok_iff {total : BitVec 64} :
    run.outcome = .ok total ↔ run.fault = none ∧ run.cycles = total := by
  cases ended : run.fault with
  | none => simp [outcome_of_fault_eq_none ended]
  | some fault => simp [outcome_of_fault_eq_some ended]

theorem outcome_eq_error_iff {fault : Fault} :
    run.outcome = .error fault ↔ run.fault = some fault := by
  cases ended : run.fault with
  | none => simp [outcome_of_fault_eq_none ended]
  | some found => simp [outcome_of_fault_eq_some ended]

end Run

/-- A longer run is a shorter one with one more step. -/
theorem Cpu.run_succ (cpu : Cpu) (bus : Bus) (limit : Nat) :
    cpu.run bus (limit + 1) = (cpu.run bus limit).advance bus := by
  rw [run, run, Run.proceed_add, Run.proceed_succ, Run.proceed_zero]

end Sm83
