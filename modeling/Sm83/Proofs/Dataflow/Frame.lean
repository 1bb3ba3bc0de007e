import Sm83.Monitor.Session
import Sm83.Proofs.Dataflow.Basic
import Sm83.Proofs.Execution

/-!
# What a run keeps

A location changes in a run only if an executed operation writes it. Main statement: every byte
register, every flag and the flag register as a whole are after a run as they were before it
unless one of the executed operations is listed to write them, and memory is as it was, also if
the run ends with a fault.
-/

namespace Sm83

namespace Executes

variable {bus : Bus} {cpu final : Cpu} {operations : List Operation}

/-- Executed operations keep every location that none of them writes. -/
theorem view_eq {location : Location} (executes : Executes bus cpu operations final)
    (free : ∀ operation ∈ operations, location ∉ operation.writes) :
    final.registers.view location = cpu.registers.view location := by
  induction executes with
  | done cpu => rfl
  | @step cpu next final operation cycles rest found stepped tail ih =>
      have first := free operation (.head _)
      calc final.registers.view location
        _ = next.registers.view location := ih fun other listed => free other (.tail _ listed)
        _ = cpu.registers.view location := by
          rw [Cpu.eq_perform_of_stepped found stepped]
          exact Operation.view_perform_of_not_mem first

theorem get_eq {register : DataRegister} (executes : Executes bus cpu operations final)
    (free : ∀ operation ∈ operations, register ∉ operation.destinations) :
    final.registers.get register = cpu.registers.get register := by
  have same : final.registers.view (.register register) = _ :=
    executes.view_eq fun operation listed =>
      mt Operation.register_mem_writes.mp (free operation listed)
  exact Sum.inl.inj same

theorem flag_eq {flag : Flag} (executes : Executes bus cpu operations final)
    (free : ∀ operation ∈ operations, flag ∉ operation.flagsWritten) :
    final.registers.flags.get flag = cpu.registers.flags.get flag := by
  have same : final.registers.view (.flag flag) = _ :=
    executes.view_eq fun operation listed =>
      mt Operation.flag_mem_writes.mp (free operation listed)
  exact Sum.inr.inj same

/-- Operations that keep all flags keep the register that holds them. -/
theorem get_f_eq (executes : Executes bus cpu operations final)
    (keep : ∀ operation ∈ operations, operation.keepsFlags) :
    final.registers.get .f = cpu.registers.get .f := by
  have flags : final.registers.flags = cpu.registers.flags := by
    apply Flags.ext_get
    intro flag
    exact executes.flag_eq fun operation listed =>
      Operation.not_mem_flagsWritten (keep operation listed)
  exact congrArg Flags.toByte flags

end Executes

namespace Session

/-- A byte register that is no destination of an executed operation is after a run what it was
before it, and so is a flag that none of them writes, the flag register if all of them keep the
flags, and memory in any case. -/
theorem run_frame (session : Session) (limit : Nat) :
    let run := session.cpu.run session.memory.read limit
    let before := session.cpu.registers
    let after := (session.perform (.run limit)).value.session
    (after.cpu = run.cpu ∧ Executes session.memory.read session.cpu run.executed after.cpu ∧
      ((∃ total, run.outcome = .ok total ∧ run.executed.length = limit) ∨
        ∃ fault, run.outcome = .error fault ∧
          (after.cpu.step session.memory.read).value = .error fault ∧
          run.executed.length < limit)) ∧
      (∀ register : DataRegister,
        (∀ operation ∈ run.executed, register ∉ operation.destinations) →
          after.cpu.registers.get register = before.get register) ∧
      ((∀ operation ∈ run.executed, operation.keepsFlags) →
        after.cpu.registers.get .f = before.get .f) ∧
      (∀ flag, (∀ operation ∈ run.executed, flag ∉ operation.flagsWritten) →
        after.cpu.registers.flags.get flag = before.flags.get flag) ∧
      after.memory = session.memory := by
  intro run before after
  obtain ⟨executes, ends⟩ : Executes _ _ run.executed after.cpu ∧ _ :=
    session.cpu.executed_run session.memory.read limit
  refine ⟨⟨rfl, executes, ?_⟩, ?_, executes.get_f_eq, ?_, rfl⟩
  · obtain ⟨going, length⟩ | ⟨fault, ended, refused, inside⟩ := ends
    · exact .inl ⟨_, Run.outcome_of_fault_eq_none going, length⟩
    · exact .inr ⟨fault, Run.outcome_of_fault_eq_some ended, refused, inside⟩
  · intro register free
    exact executes.get_eq free
  · intro flag free
    exact executes.flag_eq free

/-- A load keeps all flags. Behind it a byte is counted up and a bit checked, which keeps the carry,
and a gap ends the run. -/
theorem run_frame_at_gap :
    let memory :=
      ((((Memory.blank.write 0xFFFF 0x53).write 0 0x04).write 1 0xCB).write 2 0x79).write 3 0xD3
    let cpu : Cpu := ⟨{ b := 0xFF, c := 0x80, e := 0x12, flags := { carry := true } }, 0xFFFF⟩
    let session : Session := { cpu, memory }
    let first := (session.perform (.run 1)).value
    let last := (session.perform (.run 9)).value
    (cpu.run memory.read 1).executed = [.load .d (.register .e)] ∧
      first.session.cpu.registers.get .f = 0x10 ∧
      (cpu.run memory.read 9).executed =
        [.load .d (.register .e), .increment .b, .checkBit 7 .c] ∧
      last.answer = .error (.unimplemented 0xD3 3) ∧
      last.session.cpu.registers.get .c = 0x80 ∧
      last.session.cpu.registers.flags.carry = true := by
  intro memory cpu session first last
  have bytes : memory.read = fun address =>
      if address = 3 then 0xD3 else if address = 2 then 0x79 else if address = 1 then 0xCB
      else if address = 0 then 0x04 else if address = 0xFFFF then 0x53 else 0 := by
    funext address
    simp [memory, Memory.read_write]
  clear_value memory
  have executedFirst : (cpu.run memory.read 1).executed = [.load .d (.register .e)] := by
    rw [bytes]
    decide +kernel
  have executed : (cpu.run memory.read 9).executed =
      [.load .d (.register .e), .increment .b, .checkBit 7 .c] := by
    rw [bytes]
    decide +kernel
  have stopped : (cpu.run memory.read 9).fault = some (.unimplemented 0xD3 3) := by
    rw [bytes]
    decide +kernel
  have answer : last.answer = .error (.unimplemented 0xD3 3) :=
    congrArg (Except.map _) (Run.outcome_of_fault_eq_some stopped)
  obtain ⟨-, -, keepsFlags, -⟩ := run_frame session 1
  obtain ⟨-, keepsByte, -, keepsFlag, -⟩ := run_frame session 9
  have f := keepsFlags (by rw [executedFirst]; decide)
  have c := keepsByte .c (by rw [executed]; decide)
  have carry := keepsFlag .carry (by rw [executed]; decide)
  -- By rewriting, as the check of a conversion would go through the run.
  rw [Flags.get, Flags.get] at carry
  have held : cpu.registers.get .f = 0x10 := by decide
  exact ⟨executedFirst, f.trans held, executed, answer, c, carry⟩

end Session

end Sm83
