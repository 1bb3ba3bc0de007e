import Sm83.Proofs.Cycles

/-!
# Straight-line programs

Instructions that are assembled, copied into memory and run from the first byte on take
effect one after another, as they were listed. Decoding meets every instruction exactly
where the one before it ends. Main statement: loading such a program succeeds, and its
run gives the sum of the cycles, the address behind the program and the registers after
all effects.
-/

namespace Sm83

/-- The registers after the effects of instructions, in their order. -/
def performAll (program : List Instruction) (registers : Registers) : Registers :=
  program.foldl (fun registers instruction =>
    instruction.operation.perform instruction.immediate registers) registers

/-- The cycles of instructions, all together. -/
def totalCycles (program : List Instruction) : Nat :=
  spentCycles (program.map Instruction.operation)

theorem assemble_cons (instruction : Instruction) (rest : List Instruction) :
    assemble (instruction :: rest) = instruction.bytes ++ assemble rest :=
  List.flatMap_cons

theorem length_le_length_assemble (program : List Instruction) :
    program.length ≤ (assemble program).length := by
  induction program with
  | nil => simp
  | cons instruction rest ih =>
      have := instruction.operation.length_pos
      simp only [assemble_cons, List.length_append, List.length_cons, Instruction.length_bytes]
      omega

/-- A program in place executes its operations, has all their effects and stops behind its last
byte. -/
theorem Bus.executes_of_holds {bus : Bus} (program : List Instruction) {cpu : Cpu}
    (held : bus.Holds cpu.pc (assemble program)) :
    Executes bus cpu (program.map Instruction.operation)
      ⟨performAll program cpu.registers,
        cpu.pc + BitVec.ofNat 16 (assemble program).length⟩ := by
  induction program generalizing cpu with
  | nil =>
      have still : cpu.pc + BitVec.ofNat 16 (assemble []).length = cpu.pc := BitVec.add_zero _
      rw [still]
      exact .done cpu
  | cons instruction rest ih =>
      rw [assemble_cons, holds_append, Instruction.length_bytes] at held
      obtain ⟨here, behind⟩ := held
      have ends : (instruction.perform cpu).pc + BitVec.ofNat 16 (assemble rest).length =
          cpu.pc + BitVec.ofNat 16 (assemble (instruction :: rest)).length := by
        calc (instruction.perform cpu).pc + BitVec.ofNat 16 (assemble rest).length
          _ = cpu.pc + (BitVec.ofNat 16 instruction.operation.length +
                BitVec.ofNat 16 (assemble rest).length) := BitVec.add_assoc _ _ _
          _ = cpu.pc + BitVec.ofNat 16 (assemble (instruction :: rest)).length := by
            rw [assemble_cons, List.length_append, Instruction.length_bytes, BitVec.ofNat_add]
      rw [← ends]
      exact .step (decode_opcodeAt_of_holds here) (Cpu.value_step_of_holds here) (ih behind)

/-- A run over a program in place ends behind it, with all effects and all cycles. -/
theorem Cpu.run_of_holds {bus : Bus} {cpu : Cpu} {program : List Instruction}
    (held : bus.Holds cpu.pc (assemble program)) :
    (cpu.run bus program.length).cpu =
        ⟨performAll program cpu.registers,
          cpu.pc + BitVec.ofNat 16 (assemble program).length⟩ ∧
      (cpu.run bus program.length).outcome = .ok (BitVec.ofNat 64 (totalCycles program)) := by
  have executes := Bus.executes_of_holds program held
  have started : ({ cpu } : Run).fault = none := rfl
  have counted := Run.cycles_proceed_of_executes started executes
  obtain ⟨final, going, -⟩ := run_of_executes executes
  rw [List.length_map] at counted final going
  refine ⟨final, Run.outcome_eq_ok_iff.mpr ⟨going, ?_⟩⟩
  exact counted.trans (BitVec.zero_add _)

/-- A straight-line program executes exactly as it was assembled. Its bytes are determined by its
operations: each has one place in the opcode maps, and no two share one. -/
theorem Cpu.run_assemble (program : List Instruction) (origin : Nat) (cpu : Cpu)
    (fits : origin + (assemble program).length ≤ memorySize) (start : cpu.pc.toNat = origin) :
    (∀ instruction ∈ program, ∀ code : Opcode,
        code.decode = some instruction.operation ↔ instruction.operation.opcode = code) ∧
      ∃ memory total,
        (Memory.blank.load origin (assemble program)).value = .ok memory ∧
        (cpu.run memory.read program.length).outcome = .ok total ∧
        total.toNat = totalCycles program ∧
        (cpu.run memory.read program.length).cpu.pc.toNat =
          (origin + (assemble program).length) % 65536 ∧
        (cpu.run memory.read program.length).cpu.registers =
          performAll program cpu.registers := by
  subst start
  have held := Memory.holds_store Memory.blank fits
  obtain ⟨final, outcome⟩ := run_of_holds held
  have few : totalCycles program < 2 ^ 64 := by
    have bound := spentCycles_le (program.map Instruction.operation)
    have := length_le_length_assemble program
    simp only [memorySize] at fits
    rw [List.length_map] at bound
    rw [totalCycles]
    omega
  refine ⟨fun _ _ _ => Opcode.decode_eq_some_iff, _, _, Memory.value_load_of_fits _ fits, outcome,
    ?_, ?_, ?_⟩
  · rw [BitVec.toNat_ofNat, Nat.mod_eq_of_lt few]
  · rw [final, BitVec.toNat_add, BitVec.toNat_ofNat, Nat.add_mod_mod]
  · rw [final]

/-- A program whose last byte is the last of memory ends at address 0. -/
theorem Cpu.run_assemble_up_to_end :
    let program : List Instruction :=
      [⟨.loadPair .hl, 0x1234⟩, ⟨.arithmetic .adc .immediate, 0x99⟩, ⟨.checkBit 7 .h, 0⟩]
    let cpu : Cpu := ⟨{ a := 0x80, flags := { carry := true } }, 0xFFF9⟩
    assemble program = [0x21, 0x34, 0x12, 0xCE, 0x99, 0xCB, 0x7C] ∧
      ∃ memory total,
        (Memory.blank.load 0xFFF9 (assemble program)).value = .ok memory ∧
        (cpu.run memory.read 3).outcome = .ok total ∧ total.toNat = 28 ∧
        (cpu.run memory.read 3).cpu.pc.toNat = 0 ∧
        (cpu.run memory.read 3).cpu.registers =
          { a := 0x1A, h := 0x12, l := 0x34
            flags := { zero := true, halfCarry := true, carry := true } } := by
  intro program cpu
  have bytes : assemble program = [0x21, 0x34, 0x12, 0xCE, 0x99, 0xCB, 0x7C] := by decide
  have fits : 0xFFF9 + (assemble program).length ≤ memorySize := by rw [bytes]; decide
  have cycles : totalCycles program = 28 := by decide
  have effects : performAll program cpu.registers =
      { a := 0x1A, h := 0x12, l := 0x34
        flags := { zero := true, halfCarry := true, carry := true } } := by decide
  obtain ⟨-, memory, total, loaded, reached, taken, moved, left⟩ :=
    Cpu.run_assemble program 0xFFF9 cpu fits rfl
  rw [cycles] at taken
  rw [bytes] at moved
  exact ⟨bytes, memory, total, loaded, reached, taken, moved, left.trans effects⟩

end Sm83
