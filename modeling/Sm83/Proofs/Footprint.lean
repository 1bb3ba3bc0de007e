import Sm83.Monitor.Session
import Sm83.Proofs.Execution

/-!
# The footprint of a run

A run reads successive addresses from its first program counter on, going round at the end of
the bus, and writes none. What stands elsewhere in memory has no influence on it. Main statement:
the addresses read are those of the executed instructions and of the opcode that ends the run, and
memory that agrees at these addresses gives the same run.
-/

namespace Sm83

theorem toNat_addresses (start : Word) (count : Nat) :
    (addresses start count).map BitVec.toNat =
      (List.range count).map fun index => (start.toNat + index) % 65536 := by
  rw [addresses, List.map_map]
  apply List.map_congr_left
  intro index _
  rw [Function.comp_apply, BitVec.toNat_add, BitVec.toNat_ofNat, Nat.add_mod_mod]

namespace Run

variable {run : Run} {bus other : Bus}

/-- Addresses that were read stay read. -/
theorem mem_reads_proceed {address : Word} (limit : Nat) (read : address ∈ run.reads) :
    address ∈ (run.proceed bus limit).reads := by
  refine proceed_induction (motive := fun run => address ∈ run.reads) ?_ limit read
  intro run read
  cases ended : run.fault with
  | some fault =>
      rw [advance_of_fault ended]
      exact read
  | none =>
      rw [reads_advance ended]
      exact List.mem_append_left _ read

/-- One more step is the same on every bus that agrees where it reads. -/
theorem advance_congr (agree : ∀ address ∈ (run.advance bus).reads, other address = bus address) :
    run.advance other = run.advance bus := by
  cases ended : run.fault with
  | some fault => rw [advance_of_fault ended, advance_of_fault ended]
  | none =>
      rw [reads_advance ended] at agree
      have same := Cpu.step_congr fun address read => agree address (List.mem_append_right _ read)
      rw [advance, advance, same]

/-- A run is the same on every bus that agrees where it reads. -/
theorem proceed_congr (limit : Nat)
    (agree : ∀ address ∈ (run.proceed bus limit).reads, other address = bus address) :
    run.proceed other limit = run.proceed bus limit := by
  induction limit generalizing run with
  | zero => rfl
  | succ limit ih =>
      rw [proceed_succ] at agree
      have first : run.advance other = run.advance bus :=
        advance_congr fun address read => agree address (mem_reads_proceed limit read)
      rw [proceed_succ, proceed_succ, first, ih agree]

end Run

namespace Session

/-- Neither a step nor a run writes memory. -/
theorem memory_perform_step (session : Session) :
    (session.perform .step).value.session.memory = session.memory := by
  rw [perform, step]
  cases (session.cpu.step session.memory.read).value <;> rfl

theorem memory_perform_run (session : Session) (limit : Nat) :
    (session.perform (.run limit)).value.session.memory = session.memory :=
  rfl

/-- A run reads the bytes of the instructions that it executes, one after another, and then those
of the opcode that ends it, if any. It writes nothing, and nothing else in memory matters. -/
theorem run_footprint (session : Session) (limit : Nat) :
    let start := session.cpu.pc
    let run := session.cpu.run session.memory.read limit
    (∃ operations count,
        Executes session.memory.read session.cpu operations run.cpu ∧
        run.cpu.pc.toNat = (start.toNat + totalLength operations) % 65536 ∧
        run.reads.map BitVec.toNat =
          (List.range count).map (fun index => (start.toNat + index) % 65536) ∧
        ((∃ total, run.outcome = .ok total ∧ operations.length = limit ∧
            count = totalLength operations) ∨
          ∃ fault, run.outcome = .error fault ∧ operations.length < limit ∧
            count = totalLength operations +
              if session.memory.read run.cpu.pc = 0xCB then 2 else 1)) ∧
      (session.perform .step).value.session.memory = session.memory ∧
      (session.perform (.run limit)).value.session.memory = session.memory ∧
      ∀ memory : Memory,
        (∀ address ∈ run.reads, memory.read address = session.memory.read address) →
          session.cpu.run memory.read limit = run := by
  intro start run
  refine ⟨?_, session.memory_perform_step, session.memory_perform_run limit, ?_⟩
  · obtain ⟨operations, executes, ends⟩ := session.cpu.run_cases session.memory.read limit
    have moved : run.cpu.pc.toNat = (start.toNat + totalLength operations) % 65536 := by
      rw [executes.pc_eq, BitVec.toNat_add, BitVec.toNat_ofNat, Nat.add_mod_mod]
    obtain ⟨still, length, reads⟩ | ⟨fault, ended, -, inside, reads⟩ := ends
    · have outcome := Run.outcome_of_fault_eq_none still
      refine ⟨operations, _, executes, moved, ?_, .inl ⟨_, outcome, length, rfl⟩⟩
      rw [reads, toNat_addresses]
    · have outcome := Run.outcome_of_fault_eq_some ended
      obtain ⟨gap, -⟩ := Run.endsAtGap_run session.memory.read limit session.cpu fault ended
      refine ⟨operations, _, executes, moved, ?_, .inr ⟨fault, outcome, inside, rfl⟩⟩
      rw [reads, toNat_addresses, Bus.length_code_of_none gap]
  · intro memory agree
    exact Run.proceed_congr limit agree

/-- The byte to load stands behind the end of the bus, and the byte behind the gap at which the run
ends is not looked at. -/
theorem run_footprint_at_gap :
    let memory := (((Memory.blank.write 0xFFFF 0x3E).write 0 0x12).write 1 0xCB).write 2 0x46
    let session : Session := { cpu := { pc := 0xFFFF }, memory }
    let run := session.cpu.run memory.read 5
    run.reads = [0xFFFF, 0, 1, 2] ∧ run.cpu = ⟨{ a := 0x12 }, 1⟩ ∧
      run.outcome = .error (.unimplemented 0xCB46 1) ∧
      session.cpu.run (memory.write 3 0x99).read 5 = run := by
  intro memory session run
  have bytes : memory.read = fun address =>
      if address = 2 then 0x46 else if address = 1 then 0xCB else if address = 0 then 0x12
      else if address = 0xFFFF then 0x3E else 0 := by
    funext address
    simp [memory, Memory.read_write]
  have plain : run = session.cpu.run _ 5 := congrArg (session.cpu.run · 5) bytes
  have reads : run.reads = [0xFFFF, 0, 1, 2] := by rw [plain]; decide +kernel
  have stopped : run.fault = some (.unimplemented 0xCB46 1) := by rw [plain]; decide +kernel
  have reached : run.cpu = ⟨{ a := 0x12 }, 1⟩ := by rw [plain]; decide +kernel
  obtain ⟨-, -, -, same⟩ := run_footprint session 5
  refine ⟨reads, reached, Run.outcome_of_fault_eq_some stopped, same _ ?_⟩
  intro address read
  rw [Memory.read_write, if_neg]
  rintro rfl
  have listed : 3 ∈ run.reads := read
  rw [reads] at listed
  exact absurd listed (by decide)

end Session

end Sm83
