import Sm83.Proofs.Fetch

/-!
# Executed instructions

A run executes instructions until it has used up its steps or meets one that fails. The relation
below says which operations are executed between two states, by single steps alone. Main
statements: every run either executes as many operations as allowed, or ends at the first state
from which a step fails; and from a state there is at most one way to such an end.
-/

namespace Sm83

/-- The bytes of operations, all together. -/
def totalLength : List Operation → Nat
  | [] => 0
  | operation :: rest => operation.length + totalLength rest

/-- Steps from one state to another that all succeed, with the operations that they execute. -/
inductive Executes (bus : Bus) : Cpu → List Operation → Cpu → Prop
  | done (cpu : Cpu) : Executes bus cpu [] cpu
  | step {cpu next final : Cpu} {operation : Operation} {cycles : Nat} {rest : List Operation}
      (found : (bus.opcodeAt cpu.pc).decode = some operation)
      (stepped : (cpu.step bus).value = .ok ⟨next, cycles⟩)
      (tail : Executes bus next rest final) : Executes bus cpu (operation :: rest) final

/-- After so many steps that succeed, the next one fails. -/
structure FailsAfter (bus : Bus) (cpu : Cpu) (count : Nat) (final : Cpu) (fault : Fault) :
    Prop where
  reached : ∃ operations, operations.length = count ∧ Executes bus cpu operations final
  refused : (final.step bus).value = .error fault

variable {bus : Bus} {cpu next final : Cpu} {operations : List Operation} {fault : Fault}

namespace Cpu

theorem exists_operation_of_stepped {progress : Progress}
    (stepped : (cpu.step bus).value = .ok progress) :
    ∃ operation, (bus.opcodeAt cpu.pc).decode = some operation := by
  cases decoded : (bus.opcodeAt cpu.pc).decode with
  | none =>
      rw [value_step_of_none decoded] at stepped
      cases stepped
  | some operation => exact ⟨operation, rfl⟩

/-- A step that fails stands at a gap in the opcode maps, which its fault names. -/
theorem gap_of_refused (refused : (cpu.step bus).value = .error fault) :
    (bus.opcodeAt cpu.pc).decode = none ∧
      fault = .unimplemented (bus.opcodeAt cpu.pc).number cpu.pc := by
  cases decoded : (bus.opcodeAt cpu.pc).decode with
  | none =>
      rw [value_step_of_none decoded] at refused
      cases refused
      exact ⟨rfl, rfl⟩
  | some operation =>
      rw [value_step_of_some decoded] at refused
      cases refused

/-- A step that succeeds performs the operation at the program counter. -/
theorem eq_perform_of_stepped {operation : Operation} {cycles : Nat}
    (found : (bus.opcodeAt cpu.pc).decode = some operation)
    (stepped : (cpu.step bus).value = .ok ⟨next, cycles⟩) :
    next = cpu.perform operation (bus.immediateAt cpu.pc operation) := by
  rw [value_step_of_some found] at stepped
  cases stepped
  rfl

end Cpu

namespace Executes

/-- Executed instructions stand one right behind the other. -/
theorem pc_eq (executes : Executes bus cpu operations final) :
    final.pc = cpu.pc + BitVec.ofNat 16 (totalLength operations) := by
  induction executes with
  | done cpu => simp [totalLength]
  | @step cpu next final operation cycles rest found stepped tail ih =>
      have moved : next.pc = cpu.pc + BitVec.ofNat 16 operation.length := by
        rw [Cpu.eq_perform_of_stepped found stepped, Cpu.perform]
      calc final.pc
        _ = next.pc + BitVec.ofNat 16 (totalLength rest) := ih
        _ = cpu.pc + (BitVec.ofNat 16 operation.length + BitVec.ofNat 16 (totalLength rest)) := by
          rw [moved, BitVec.add_assoc]
        _ = cpu.pc + BitVec.ofNat 16 (totalLength (operation :: rest)) := by
          rw [totalLength, BitVec.ofNat_add]

/-- There is at most one way to a state from which a step fails. -/
theorem eq_of_refused {others : List Operation} {other : Cpu} {otherFault : Fault}
    (executes : Executes bus cpu operations final)
    (refused : (final.step bus).value = .error fault)
    (executesOther : Executes bus cpu others other)
    (refusedOther : (other.step bus).value = .error otherFault) :
    operations = others ∧ final = other := by
  -- Two executions part only where one of them ends, and there the next step fails.
  induction executes generalizing others with
  | done cpu =>
      cases executesOther with
      | done => exact ⟨rfl, rfl⟩
      | step _ stepped _ =>
          rw [refused] at stepped
          cases stepped
  | step found stepped tail ih =>
      cases executesOther with
      | done =>
          rw [stepped] at refusedOther
          cases refusedOther
      | step foundOther steppedOther tailOther =>
          obtain rfl := Option.some.inj (found.symm.trans foundOther)
          rw [stepped] at steppedOther
          cases steppedOther
          obtain ⟨rfl, rfl⟩ := ih refused tailOther
          exact ⟨rfl, rfl⟩

end Executes

theorem FailsAfter.count_unique {count other : Nat} {otherFinal : Cpu} {otherFault : Fault}
    (fails : FailsAfter bus cpu count final fault)
    (failsOther : FailsAfter bus cpu other otherFinal otherFault) : other = count := by
  obtain ⟨operations, rfl, executes⟩ := fails.reached
  obtain ⟨others, rfl, executesOther⟩ := failsOther.reached
  obtain ⟨rfl, -⟩ :=
    executes.eq_of_refused fails.refused executesOther failsOther.refused
  rfl

/-- Either all of so many steps succeed, or one of them is the first that fails. -/
theorem executes_or_fails (bus : Bus) (limit : Nat) (cpu : Cpu) :
    (∃ operations final, operations.length = limit ∧ Executes bus cpu operations final) ∨
      ∃ count final fault, count < limit ∧ FailsAfter bus cpu count final fault := by
  -- The first step decides between the two, or moves to the state from which the rest is done.
  induction limit generalizing cpu with
  | zero => exact .inl ⟨[], cpu, rfl, .done cpu⟩
  | succ limit ih =>
      cases stepped : (cpu.step bus).value with
      | error fault => exact .inr ⟨0, cpu, fault, by omega, ⟨[], rfl, .done cpu⟩, stepped⟩
      | ok progress =>
          obtain ⟨operation, found⟩ := Cpu.exists_operation_of_stepped stepped
          obtain ⟨operations, final, length, executes⟩ | ⟨_, final, fault, inside, fails⟩ :=
            ih progress.cpu
          · exact .inl ⟨operation :: operations, final, congrArg (· + 1) length,
              .step found stepped executes⟩
          · obtain ⟨operations, rfl, executes⟩ := fails.reached
            exact .inr ⟨operations.length + 1, final, fault, by omega,
              ⟨operation :: operations, rfl, .step found stepped executes⟩, fails.refused⟩

/-! ## Runs -/

namespace Run

variable {run : Run}

theorem advance_of_refused (going : run.fault = none)
    (refused : (run.cpu.step bus).value = .error fault) :
    run.advance bus =
      { run with fault := some fault, events := run.events ++ (run.cpu.step bus).events } := by
  simp [advance, going, refused]

/-- What holds of a run that stands still, and of every run if it holds after its first step, holds
of all runs over executed operations. -/
theorem executes_induction {motive : Run → List Operation → Cpu → Prop}
    (done : ∀ {run : Run}, run.fault = none → motive run [] run.cpu)
    (step : ∀ {run : Run} {operation : Operation} {rest : List Operation} {final : Cpu},
      run.fault = none → (bus.opcodeAt run.cpu.pc).decode = some operation →
      motive (run.advance bus) rest final → motive run (operation :: rest) final)
    (going : run.fault = none) (executes : Executes bus run.cpu operations final) :
    motive run operations final := by
  generalize start : run.cpu = cpu at executes
  induction executes generalizing run with
  | done cpu =>
      subst start
      exact done going
  | @step cpu next final operation cycles rest found stepped tail ih =>
      subst start
      have first := advance_of_some going found
      have again : (run.advance bus).fault = none := by rw [first]
      refine step going found (ih again ?_)
      rw [first, Cpu.eq_perform_of_stepped found stepped]

/-- A run of as many steps as succeed executes them. -/
theorem proceed_of_executes (going : run.fault = none)
    (executes : Executes bus run.cpu operations final) :
    let after := run.proceed bus operations.length
    after.cpu = final ∧ after.fault = none ∧
      after.reads = run.reads ++ addresses run.cpu.pc (totalLength operations) := by
  refine executes_induction (motive := fun run operations final =>
    let after := run.proceed bus operations.length
    after.cpu = final ∧ after.fault = none ∧
      after.reads = run.reads ++ addresses run.cpu.pc (totalLength operations)) ?_ ?_ going executes
  · intro run going
    simp [going, totalLength, addresses]
  · rintro run operation rest final going found ⟨reached, still, reads⟩
    rw [List.length_cons, proceed_succ]
    refine ⟨reached, still, ?_⟩
    rw [reads, reads_advance going, Cpu.reads_step_of_some found, totalLength, addresses_add,
      List.append_assoc, advance_of_some going found]
    rfl

/-- A run that meets a step that fails ends with it. -/
theorem proceed_eq_advance_of_refused {limit : Nat} (going : run.fault = none)
    (executes : Executes bus run.cpu operations final)
    (refused : (final.step bus).value = .error fault) (inside : operations.length < limit) :
    run.proceed bus limit = (run.proceed bus operations.length).advance bus := by
  obtain ⟨rest, rfl⟩ := Nat.exists_eq_add_of_lt inside
  obtain ⟨reached, still, -⟩ := proceed_of_executes going executes
  have ended : ((run.proceed bus operations.length).advance bus).fault.isSome := by
    rw [advance_of_refused still (reached ▸ refused)]
    rfl
  rw [Nat.add_assoc, proceed_add, proceed_succ, proceed_of_isSome ended]

/-- A run that meets a step that fails ends there, after reading what is left to read. -/
theorem proceed_of_refused {limit : Nat} (going : run.fault = none)
    (executes : Executes bus run.cpu operations final)
    (refused : (final.step bus).value = .error fault) (inside : operations.length < limit) :
    let after := run.proceed bus limit
    after.cpu = final ∧ after.fault = some fault ∧
      after.reads = run.reads ++
        addresses run.cpu.pc (totalLength operations + (bus.code final.pc).length) := by
  obtain ⟨reached, still, reads⟩ := proceed_of_executes going executes
  have last := advance_of_refused still (reached ▸ refused)
  rw [proceed_eq_advance_of_refused going executes refused inside]
  refine ⟨?_, ?_, ?_⟩
  · rw [last]
    exact reached
  · rw [last]
  · calc ((run.proceed bus operations.length).advance bus).reads
      _ = (run.proceed bus operations.length).reads ++ (final.step bus).reads := by
        rw [reads_advance still, reached]
      _ = run.reads ++ (addresses run.cpu.pc (totalLength operations) ++
            addresses final.pc (bus.code final.pc).length) := by
        rw [reads, Cpu.reads_step, List.append_assoc]
      _ = run.reads ++
            addresses run.cpu.pc (totalLength operations + (bus.code final.pc).length) := by
        rw [addresses_add, executes.pc_eq]

end Run

namespace Cpu

/-- A run over operations that can be executed ends where they end. -/
theorem run_of_executes (executes : Executes bus cpu operations final) :
    (cpu.run bus operations.length).cpu = final ∧
      (cpu.run bus operations.length).fault = none ∧
      (cpu.run bus operations.length).reads = addresses cpu.pc (totalLength operations) := by
  have started : ({ cpu } : Run).fault = none := rfl
  exact Run.proceed_of_executes started executes

/-- A run that meets a step that fails has done the steps before it, and this one last. -/
theorem run_of_fails {limit count : Nat} (fails : FailsAfter bus cpu count final fault)
    (inside : count < limit) :
    (cpu.run bus count).cpu = final ∧ (cpu.run bus count).fault = none ∧
      cpu.run bus limit = (cpu.run bus count).advance bus := by
  obtain ⟨operations, rfl, executes⟩ := fails.reached
  obtain ⟨reached, going, -⟩ := run_of_executes executes
  have started : ({ cpu } : Run).fault = none := rfl
  exact ⟨reached, going,
    Run.proceed_eq_advance_of_refused started executes fails.refused inside⟩

/-- A run either executes as many operations as allowed or ends at a state from which a step
fails, and reads the bytes of what it executes and of what it fails at. -/
theorem run_cases (cpu : Cpu) (bus : Bus) (limit : Nat) :
    ∃ operations, Executes bus cpu operations (cpu.run bus limit).cpu ∧
      ((cpu.run bus limit).fault = none ∧ operations.length = limit ∧
          (cpu.run bus limit).reads = addresses cpu.pc (totalLength operations) ∨
        ∃ fault, (cpu.run bus limit).fault = some fault ∧
          ((cpu.run bus limit).cpu.step bus).value = .error fault ∧ operations.length < limit ∧
          (cpu.run bus limit).reads = addresses cpu.pc
            (totalLength operations + (bus.code (cpu.run bus limit).cpu.pc).length)) := by
  obtain ⟨operations, final, rfl, executes⟩ | ⟨_, final, fault, inside, fails⟩ :=
    executes_or_fails bus limit cpu
  · obtain ⟨reached, still, reads⟩ := run_of_executes executes
    rw [← reached] at executes
    exact ⟨operations, executes, .inl ⟨still, rfl, reads⟩⟩
  · obtain ⟨operations, rfl, executes⟩ := fails.reached
    have refused := fails.refused
    have started : ({ cpu } : Run).fault = none := rfl
    obtain ⟨reached, ended, reads⟩ := Run.proceed_of_refused started executes refused inside
    rw [← reached] at executes refused reads
    exact ⟨operations, executes, .inr ⟨fault, ended, refused, inside, reads⟩⟩

/-- A run that has met no fault has executed an operation in every step. -/
theorem executes_run_of_going {limit : Nat} (going : (cpu.run bus limit).fault = none) :
    ∃ operations, Executes bus cpu operations (cpu.run bus limit).cpu ∧
      operations.length = limit := by
  obtain ⟨operations, executes, ⟨-, length, -⟩ | ⟨fault, ended, -⟩⟩ := cpu.run_cases bus limit
  · exact ⟨operations, executes, length⟩
  · rw [going] at ended
    cases ended

/-- A run that cannot even start changes nothing. -/
theorem run_of_refused {limit : Nat} (refused : (cpu.step bus).value = .error fault)
    (positive : 0 < limit) :
    (cpu.run bus limit).cpu = cpu ∧ (cpu.run bus limit).fault = some fault := by
  have started : ({ cpu } : Run).fault = none := rfl
  obtain ⟨reached, ended, -⟩ := Run.proceed_of_refused started (.done cpu) refused positive
  exact ⟨reached, ended⟩

end Cpu

/-! ## Operations in the log -/

/-- The operation of which a record tells. -/
def Record.operation? : Record → Option Operation
  | .executed _ _ operation _ => some operation
  | _ => none

/-- The operations that a run has executed, as its log tells. -/
def Run.executed (run : Run) : List Operation := run.records.filterMap Record.operation?

namespace Run

variable {run : Run} {operation : Operation}

theorem executed_advance_of_some (going : run.fault = none)
    (found : (bus.opcodeAt run.cpu.pc).decode = some operation) :
    (run.advance bus).executed = run.executed ++ [operation] := by
  rw [Run.executed, records_advance going, Cpu.records_step_of_some found,
    List.filterMap_append]
  rfl

/-- A gap adds a record, but no operation. -/
theorem executed_advance_of_none (going : run.fault = none)
    (gap : (bus.opcodeAt run.cpu.pc).decode = none) :
    (run.advance bus).executed = run.executed := by
  rw [Run.executed, records_advance going, Cpu.records_step_of_none gap,
    List.filterMap_append]
  exact List.append_nil _

end Run

/-- What can be executed from the end of an execution prolongs it. -/
theorem Executes.append {rest : List Operation} (executes : Executes bus cpu operations next)
    (tail : Executes bus next rest final) : Executes bus cpu (operations ++ rest) final := by
  induction executes with
  | done cpu => exact tail
  | step found stepped _ ih => exact .step found stepped (ih tail)

/-- The log of a run lists what it has executed: an operation for every step allowed, or those
before the step that fails. -/
theorem Cpu.executed_run (cpu : Cpu) (bus : Bus) (limit : Nat) :
    Executes bus cpu (cpu.run bus limit).executed (cpu.run bus limit).cpu ∧
      ((cpu.run bus limit).fault = none ∧ (cpu.run bus limit).executed.length = limit ∨
        ∃ fault, (cpu.run bus limit).fault = some fault ∧
          ((cpu.run bus limit).cpu.step bus).value = .error fault ∧
          (cpu.run bus limit).executed.length < limit) := by
  induction limit with
  | zero => exact ⟨.done cpu, .inl ⟨rfl, rfl⟩⟩
  | succ limit ih =>
      obtain ⟨executes, ⟨going, length⟩ | ⟨fault, ended, refused, inside⟩⟩ := ih
      · rw [run_succ]
        cases decoded : (bus.opcodeAt (cpu.run bus limit).cpu.pc).decode with
        | none =>
            rw [Run.executed_advance_of_none going decoded,
              Run.advance_of_none going decoded]
            exact ⟨executes, .inr ⟨_, rfl, value_step_of_none decoded, by omega⟩⟩
        | some operation =>
            rw [Run.executed_advance_of_some going decoded,
              Run.advance_of_some going decoded, List.length_append, length]
            have last := Executes.step decoded (value_step_of_some decoded) (.done _)
            exact ⟨executes.append last, .inl ⟨rfl, rfl⟩⟩
      · rw [run_succ, Run.advance_of_fault ended]
        exact ⟨executes, .inr ⟨fault, ended, refused, by omega⟩⟩

end Sm83
