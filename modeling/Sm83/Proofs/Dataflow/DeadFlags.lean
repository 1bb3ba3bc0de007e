import Sm83.Proofs.Dataflow.Basic
import Sm83.Proofs.Execution
import Sm83.Proofs.Lockstep

/-!
# Flags without influence

Two runs from one address execute the same operations, so what they agree on beforehand can only
be lost through a location at which one of these looks. Main statement: bytes and the carry do not
depend on the three other flags, unless decimal adjustment, which alone looks at them, is executed.
-/

namespace Sm83

variable {inside : Location → Prop}

/-- Agreement of two register contents in some locations. -/
def Registers.AgreeOn (inside : Location → Prop) (registers other : Registers) : Prop :=
  ∀ location, inside location → registers.view location = other.view location

/-- An operation that looks nowhere else keeps the agreement. -/
theorem Registers.AgreeOn.perform {operation : Operation} {immediate : Word}
    {registers other : Registers} (agree : registers.AgreeOn inside other)
    (closed : ∀ location ∈ operation.reads, inside location) :
    (operation.perform immediate registers).AgreeOn inside
      (operation.perform immediate other) := by
  intro location member
  by_cases written : location ∈ operation.writes
  · exact Operation.view_perform_congr (fun read listed => agree read (closed read listed)) written
  · rw [Operation.view_perform_of_not_mem written, Operation.view_perform_of_not_mem written]
    exact agree location member

namespace Run

/-- Two runs in lockstep that agree in some locations for as long as nothing that they execute looks
anywhere else. -/
structure Alike (inside : Location → Prop) (run other : Run) : Prop where
  control : SameControl run other
  agree : (∀ operation ∈ run.executed, ∀ location ∈ operation.reads, inside location) →
    run.cpu.registers.AgreeOn inside other.cpu.registers

/-- One more step keeps two runs alike. -/
theorem Alike.advance (bus : Bus) {run other : Run} (alike : Alike inside run other) :
    Alike inside (run.advance bus) (other.advance bus) := by
  refine ⟨alike.control.advance bus, ?_⟩
  intro closed
  cases ended : run.fault with
  | some fault =>
      have otherEnded : other.fault = some fault := alike.control.fault ▸ ended
      rw [advance_of_fault ended] at closed ⊢
      rw [advance_of_fault otherEnded]
      exact alike.agree closed
  | none =>
      have going : other.fault = none := alike.control.fault ▸ ended
      cases decoded : (bus.opcodeAt run.cpu.pc).decode with
      | none =>
          have gap : (bus.opcodeAt other.cpu.pc).decode = none := alike.control.pc ▸ decoded
          rw [executed_advance_of_none ended decoded] at closed
          rw [advance_of_none ended decoded, advance_of_none going gap]
          exact alike.agree closed
      | some operation =>
          have found : (bus.opcodeAt other.cpu.pc).decode = some operation :=
            alike.control.pc ▸ decoded
          rw [executed_advance_of_some ended decoded] at closed
          have before := alike.agree fun earlier listed =>
            closed earlier (List.mem_append_left _ listed)
          rw [advance_of_some ended decoded, advance_of_some going found, alike.control.pc]
          exact before.perform (closed operation (List.mem_append_right _ (.head _)))

/-- Two processors at one address that agree in some locations run alike in them. -/
theorem alike_run (bus : Bus) (limit : Nat) {cpu other : Cpu} (pc : cpu.pc = other.pc)
    (agree : cpu.registers.AgreeOn inside other.registers) :
    Alike inside (cpu.run bus limit) (other.run bus limit) :=
  proceed_related (fun _ _ alike => alike.advance bus) limit ⟨⟨pc, rfl, rfl, rfl⟩, fun _ => agree⟩

end Run

/-! ## The carry among the flags -/

/-- A byte register, or the carry. -/
def Location.Lasting : Location → Prop
  | .register _ => True
  | .flag held => held = .carry

/-- Only decimal adjustment looks at other flags than the carry. -/
theorem Operation.lasting_of_mem_reads {operation : Operation}
    (plain : operation ≠ .adjustDecimal) {location : Location}
    (read : location ∈ operation.reads) : location.Lasting := by
  cases location with
  | register register => trivial
  | flag flag =>
      rw [flag_mem_reads] at read
      cases operation with
      | adjustDecimal => exact absurd rfl plain
      | arithmetic _ _ | rotateA _ | shift _ _ | complementCarry =>
          exact List.mem_singleton.mp read
      | _ => cases read

theorem Registers.agreeOn_lasting_iff {registers other : Registers} :
    registers.AgreeOn Location.Lasting other ↔
      (∀ register : DataRegister, registers.get register = other.get register) ∧
        registers.flags.carry = other.flags.carry := by
  constructor
  · intro agree
    exact ⟨fun register => Sum.inl.inj (agree (.register register) trivial),
      Sum.inr.inj (agree (.flag .carry) rfl)⟩
  · rintro ⟨bytes, carry⟩ (register | flag) lasting
    · exact congrArg Sum.inl (bytes register)
    · obtain rfl : flag = .carry := lasting
      exact congrArg Sum.inr carry

/-- Without decimal adjustment the zero, subtract and half carry flags have no influence on bytes,
the carry, the program counter or the outcome of a run. -/
theorem Cpu.run_agrees_of_carry_eq (bus : Bus) (limit : Nat) {cpu other : Cpu}
    (pc : cpu.pc = other.pc)
    (bytes : ∀ register : DataRegister,
      cpu.registers.get register = other.registers.get register)
    (carry : cpu.registers.flags.carry = other.registers.flags.carry)
    (plain : .adjustDecimal ∉ (cpu.run bus limit).executed) :
    let run := cpu.run bus limit
    let otherRun := other.run bus limit
    run.outcome = otherRun.outcome ∧ run.cpu.pc = otherRun.cpu.pc ∧
      (∀ register : DataRegister,
        run.cpu.registers.get register = otherRun.cpu.registers.get register) ∧
      run.cpu.registers.flags.carry = otherRun.cpu.registers.flags.carry := by
  intro run otherRun
  have agree := Registers.agreeOn_lasting_iff.mpr ⟨bytes, carry⟩
  have alike : run.Alike Location.Lasting otherRun := Run.alike_run bus limit pc agree
  have closed : ∀ operation ∈ run.executed, ∀ location ∈ operation.reads, location.Lasting := by
    intro operation listed location read
    refine Operation.lasting_of_mem_reads ?_ read
    rintro rfl
    exact plain listed
  exact ⟨alike.control.outcome, alike.control.pc,
    Registers.agreeOn_lasting_iff.mp (alike.agree closed)⟩

/-- A rotation, a subtraction with borrow and an inversion of the carry pass over other flags. -/
theorem Cpu.run_agrees_of_carry_eq_at_gap :
    let bus : Bus := fun address =>
      if address = 0xFFFE then 0x17 else if address = 0xFFFF then 0xDE
      else if address = 0 then 0x22 else if address = 1 then 0x3F else 0xD3
    let cpu : Cpu :=
      ⟨{ a := 0x80, flags := { zero := true, subtract := true, carry := true } }, 0xFFFE⟩
    let other : Cpu := ⟨{ a := 0x80, flags := { halfCarry := true, carry := true } }, 0xFFFE⟩
    (cpu.run bus 5).executed =
        [.rotateA .rl, .arithmetic .sbc .immediate, .complementCarry] ∧
      (cpu.run bus 5).outcome = .error (.unimplemented 0xD3 2) ∧
      (other.run bus 5).outcome = .error (.unimplemented 0xD3 2) ∧
      (other.run bus 5).cpu.pc = 2 ∧ (other.run bus 5).cpu.registers.get .a = 0xDE ∧
      (other.run bus 5).cpu.registers.flags.carry = false := by
  intro bus cpu other
  have executed : (cpu.run bus 5).executed =
      [.rotateA .rl, .arithmetic .sbc .immediate, .complementCarry] := by decide +kernel
  have stopped : (cpu.run bus 5).fault = some (.unimplemented 0xD3 2) := by decide +kernel
  have reached : (cpu.run bus 5).cpu =
      ⟨{ a := 0xDE, flags := { subtract := true } }, 2⟩ := by decide +kernel
  have plain : .adjustDecimal ∉ (cpu.run bus 5).executed := by rw [executed]; decide
  have pc : cpu.pc = other.pc := rfl
  have bytes (register : DataRegister) :
      cpu.registers.get register = other.registers.get register := by cases register <;> rfl
  obtain ⟨outcome, address, kept, carry⟩ := Cpu.run_agrees_of_carry_eq bus 5 pc bytes rfl plain
  have a := kept .a
  rw [Run.outcome_of_fault_eq_some stopped] at outcome
  rw [reached] at address a carry
  exact ⟨executed, Run.outcome_of_fault_eq_some stopped, outcome.symm, address.symm, a.symm,
    carry.symm⟩

end Sm83
