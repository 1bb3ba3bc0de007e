import Sm83.Cpu.Step

/-! # Runs

Steps one after another, up to a limit. The first fault ends a run; what the steps before
it did remains. Cycles are counted modulo 2 ^ 64. Main statements: a fault ends a run for
good, and a run can be split anywhere. -/

namespace Sm83

/-- How far a run has come. -/
structure Run where
  cpu : Cpu
  cycles : BitVec 64 := 0
  fault : Option Fault := none
  events : Array Event := #[]

namespace Run

/-- One more step, unless a fault has ended the run. -/
def advance (run : Run) (bus : Bus) : Run :=
  match run.fault with
  | some _ => run
  | none =>
      let step := run.cpu.step bus
      match step.value with
      | .ok progress =>
          { run with
            cpu := progress.cpu
            cycles := run.cycles + BitVec.ofNat 64 progress.cycles
            events := run.events ++ step.events }
      | .error fault => { run with fault := some fault, events := run.events ++ step.events }

/-- As many more steps as allowed. -/
def proceed (bus : Bus) : Nat → Run → Run
  | 0, run => run
  | limit + 1, run => if run.fault.isSome then run else proceed bus limit (run.advance bus)

/-- The cycles of a run without fault. -/
def outcome (run : Run) : Except Fault (BitVec 64) :=
  match run.fault with
  | some fault => .error fault
  | none => .ok run.cycles

/-- The addresses read, in order. -/
def reads (run : Run) : List Word := run.events.toList.filterMap Event.address?

/-- The records written, in order. -/
def records (run : Run) : List Record := run.events.toList.filterMap Event.record?

/-- A fault ends a run for good. -/
theorem advance_of_isSome {run : Run} (ended : run.fault.isSome) (bus : Bus) :
    run.advance bus = run := by
  obtain ⟨fault, ended⟩ := Option.isSome_iff_exists.mp ended
  simp [advance, ended]

@[simp] theorem proceed_zero (bus : Bus) (run : Run) : run.proceed bus 0 = run := rfl

theorem proceed_of_isSome {run : Run} (ended : run.fault.isSome) (bus : Bus) (limit : Nat) :
    run.proceed bus limit = run := by
  cases limit <;> simp [proceed, ended]

theorem proceed_succ (bus : Bus) (limit : Nat) (run : Run) :
    run.proceed bus (limit + 1) = (run.advance bus).proceed bus limit := by
  by_cases ended : run.fault.isSome
  · rw [advance_of_isSome ended, proceed_of_isSome ended, proceed_of_isSome ended]
  · simp [proceed, ended]

/-- A run can be split anywhere. -/
theorem proceed_add (bus : Bus) (first second : Nat) (run : Run) :
    run.proceed bus (first + second) = (run.proceed bus first).proceed bus second := by
  induction first generalizing run with
  | zero => simp
  | succ first ih => rw [Nat.succ_add, proceed_succ, ih, proceed_succ]

end Run

/-- Executes instructions up to a limit. -/
def Cpu.run (cpu : Cpu) (bus : Bus) (limit : Nat) : Run := Run.proceed bus limit { cpu }

end Sm83
