import Sm83.Monitor.Session
import Sm83.Proofs.Execution

/-!
# Runs in parts

A run can be stopped after any number of steps and resumed: the parts leave the same state as
the whole, and their cycles add up. A fault is final. Main statement: a run is the run of its
parts, and one that fails has executed all steps before the first failing one, which fails again
whenever it is tried.
-/

namespace Sm83

/-- Every step and every run of at least one step is refused with this fault, and the session
stays as it is. -/
structure Session.Stuck (session : Session) (fault : Fault) : Prop where
  step : (session.perform .step).value = ⟨session, .error fault⟩
  run : ∀ limit, 0 < limit → (session.perform (.run limit)).value = ⟨session, .error fault⟩

/-- Where a step fails, nothing gets any further. -/
theorem Session.stuck_of_refused {session : Session} {fault : Fault}
    (refused : (session.cpu.step session.memory.read).value = .error fault) :
    session.Stuck fault where
  step := by rw [perform, Session.step, refused]
  run limit positive := by
    obtain ⟨reached, ended⟩ := Cpu.run_of_refused refused positive
    rw [perform, Session.run, reached, Run.outcome_of_fault_eq_some ended]
    rfl

namespace Run

variable {bus : Bus} {run other : Run}

/-- A run that differs from another only in that it has spent some cycles before. -/
structure Resumed (spent : BitVec 64) (run other : Run) : Prop where
  cpu : other.cpu = run.cpu
  fault : other.fault = run.fault
  cycles : other.cycles = spent + run.cycles

/-- One more step adds the same cycles to both runs. -/
theorem Resumed.advance {spent : BitVec 64} (resumed : Resumed spent run other) :
    Resumed spent (run.advance bus) (other.advance bus) := by
  obtain ⟨cpu, fault, cycles⟩ := resumed
  cases ended : run.fault with
  | some found =>
      rw [advance_of_fault ended, advance_of_fault (fault.trans ended)]
      exact ⟨cpu, fault, cycles⟩
  | none =>
      have going : other.fault = none := fault.trans ended
      cases stepped : (run.cpu.step bus).value with
      | error found =>
          rw [advance_of_refused ended stepped, advance_of_refused going (cpu ▸ stepped)]
          exact ⟨cpu, rfl, cycles⟩
      | ok progress =>
          obtain ⟨operation, found⟩ := Cpu.exists_operation_of_stepped stepped
          rw [advance_of_some ended found, advance_of_some going (cpu ▸ found), cpu, cycles]
          exact ⟨rfl, rfl, BitVec.add_assoc _ _ _⟩

/-- What is left of a run is a run from where it stands. -/
theorem resumed_run (going : run.fault = none) (bus : Bus) (limit : Nat) :
    Resumed run.cycles (run.cpu.run bus limit) (run.proceed bus limit) := by
  apply proceed_related (fun _ _ resumed => resumed.advance)
  exact ⟨rfl, going, (BitVec.add_zero _).symm⟩

end Run

/-- A run splits at any point, and a fault in its first part ends it for good: the steps before the
first failing one have been executed, and no step from there on gets any further. -/
theorem Cpu.run_add (cpu : Cpu) (bus : Bus) (m n : Nat) :
    let first := cpu.run bus m
    let second := first.cpu.run bus n
    let whole := cpu.run bus (m + n)
    (∀ c₁, first.outcome = .ok c₁ →
        whole.cpu = second.cpu ∧
        (∀ c₂, second.outcome = .ok c₂ →
          whole.outcome = .ok (c₁ + c₂) ∧
            (c₁.toNat + c₂.toNat < 0x10000000000000000 →
              (c₁ + c₂).toNat = c₁.toNat + c₂.toNat)) ∧
        ∀ fault, second.outcome = .error fault → whole.outcome = .error fault) ∧
      ∀ fault, first.outcome = .error fault →
        whole.outcome = .error fault ∧ whole.cpu = first.cpu ∧
        (∃ k, k < m ∧ FailsAfter bus cpu k first.cpu fault ∧
          ∀ j final other, FailsAfter bus cpu j final other → j = k) ∧
        ∀ session : Session, session.cpu = first.cpu → session.memory.read = bus →
          session.Stuck fault := by
  intro first second whole
  have parts : whole = first.proceed bus n := Run.proceed_add bus m n { cpu }
  constructor
  · intro c₁ outcome
    obtain ⟨going, rfl⟩ := Run.outcome_eq_ok_iff.mp outcome
    have resumed : Run.Resumed first.cycles second whole :=
      parts ▸ Run.resumed_run going bus n
    refine ⟨resumed.cpu, ?_, ?_⟩
    · intro c₂ outcomeSecond
      obtain ⟨still, rfl⟩ := Run.outcome_eq_ok_iff.mp outcomeSecond
      refine ⟨?_, BitVec.toNat_add_of_lt⟩
      exact Run.outcome_eq_ok_iff.mpr ⟨resumed.fault.trans still, resumed.cycles⟩
    · intro fault outcomeSecond
      rw [Run.outcome_eq_error_iff] at outcomeSecond ⊢
      exact resumed.fault.trans outcomeSecond
  · intro fault outcome
    have ended := Run.outcome_eq_error_iff.mp outcome
    have stays : whole = first := by
      rw [parts, Run.proceed_of_isSome (by simp [ended])]
    obtain ⟨operations, executes, ⟨going, -⟩ | ⟨found, stopped, refused, inside, -⟩⟩ :=
      cpu.run_cases bus m
    · rw [going] at ended
      cases ended
    · obtain rfl : found = fault := Option.some.inj (stopped.symm.trans ended)
      have fails : FailsAfter bus cpu operations.length first.cpu found :=
        ⟨⟨operations, rfl, executes⟩, refused⟩
      refine ⟨stays ▸ outcome, stays ▸ rfl, ⟨_, inside, fails, ?_⟩, ?_⟩
      · intro j final other failsOther
        exact fails.count_unique failsOther
      · rintro session reached rfl
        exact Session.stuck_of_refused (reached ▸ refused)

/-- Two instructions on both sides of the end of the bus, and a gap behind them. -/
theorem Cpu.run_add_at_gap :
    let bus : Bus := fun address =>
      if address = 1 then 0xD3 else if address = 0 then 0x17 else if address = 0xFFFF then 0x3C
      else 0
    let memory := ((Memory.blank.write 0xFFFF 0x3C).write 0 0x17).write 1 0xD3
    let cpu : Cpu := ⟨{ a := 0x7F }, 0xFFFF⟩
    let final : Cpu := ⟨{ flags := { carry := true } }, 1⟩
    let fault : Fault := .unimplemented 0xD3 1
    (cpu.run bus (1 + 1)).outcome = .ok 8 ∧
      (cpu.run bus (3 + 9)).outcome = .error fault ∧ (cpu.run bus (3 + 9)).cpu = final ∧
      (∃ k, k < 3 ∧ FailsAfter bus cpu k final fault) ∧
      ({ cpu := final, memory } : Session).Stuck fault := by
  intro bus memory cpu final fault
  have bytes : memory.read = bus := by
    funext address
    simp [memory, bus, Memory.read_write]
  have one : (cpu.run bus 1).outcome = .ok 4 :=
    Run.outcome_eq_ok_iff.mpr ⟨by decide +kernel, by decide +kernel⟩
  have next : ((cpu.run bus 1).cpu.run bus 1).outcome = .ok 4 :=
    Run.outcome_eq_ok_iff.mpr ⟨by decide +kernel, by decide +kernel⟩
  have stopped : (cpu.run bus 3).outcome = .error fault :=
    Run.outcome_eq_error_iff.mpr (by decide +kernel)
  have reached : (cpu.run bus 3).cpu = final := by decide +kernel
  obtain ⟨splits, -⟩ := Cpu.run_add cpu bus 1 1
  obtain ⟨-, sums, -⟩ := splits 4 one
  obtain ⟨sum, -⟩ := sums 4 next
  obtain ⟨-, ends⟩ := Cpu.run_add cpu bus 3 9
  obtain ⟨outcome, same, ⟨k, inside, fails, -⟩, stuck⟩ := ends fault stopped
  rw [reached] at same fails stuck
  exact ⟨sum, outcome, same, ⟨k, inside, fails⟩, stuck _ rfl bytes⟩

end Sm83
