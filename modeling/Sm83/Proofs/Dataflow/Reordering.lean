import Sm83.Proofs.Dataflow.Basic
import Sm83.Proofs.StraightLine

/-!
# Reordering of instructions

Two instructions are independent if neither writes a register that the other one reads or writes,
where all flags count as one register. Main statement: independent neighbours in a straight-line
program can change places, any number of times and wherever the program stands, and it ends in the
same state after the same number of cycles.
-/

namespace Sm83

/-- The register that a location belongs to. -/
def Location.home : Location → Register
  | .register name => name
  | .flag _ => .f

namespace Operation

/-- The registers at which an operation looks. An operation that does not keep all flags counts as
looking at their register. -/
def inputs (operation : Operation) : List Register :=
  operation.sources.map DataRegister.toRegister ++ if operation.keepsFlags then [] else [.f]

/-- The registers that an operation does not keep. -/
def outputs (operation : Operation) : List Register :=
  operation.destinations.map DataRegister.toRegister ++
    if operation.keepsFlags then [] else [.f]

/-- Neither operation writes a register that the other one reads or writes. -/
def Independent (first second : Operation) : Prop :=
  (∀ register ∈ first.outputs, register ∉ second.inputs ∧ register ∉ second.outputs) ∧
    ∀ register ∈ second.outputs, register ∉ first.inputs ∧ register ∉ first.outputs

instance (first second : Operation) : Decidable (first.Independent second) :=
  inferInstanceAs (Decidable (_ ∧ _))

variable {operation first second : Operation} {location : Location}

theorem home_mem_inputs (read : location ∈ operation.reads) :
    location.home ∈ operation.inputs := by
  cases location with
  | register register =>
      exact List.mem_append_left _ (List.mem_map_of_mem (register_mem_reads.mp read))
  | flag flag =>
      have touches : ¬ operation.keepsFlags := fun keeps =>
        not_mem_flagsRead keeps (flag_mem_reads.mp read)
      rw [inputs, if_neg touches]
      exact List.mem_append_right _ (.head _)

theorem home_mem_outputs (written : location ∈ operation.writes) :
    location.home ∈ operation.outputs := by
  cases location with
  | register register =>
      exact List.mem_append_left _ (List.mem_map_of_mem (register_mem_writes.mp written))
  | flag flag =>
      have touches : ¬ operation.keepsFlags := fun keeps =>
        not_mem_flagsWritten keeps (flag_mem_writes.mp written)
      rw [outputs, if_neg touches]
      exact List.mem_append_right _ (.head _)

theorem Independent.symm (independent : first.Independent second) : second.Independent first :=
  ⟨independent.2, independent.1⟩

theorem Independent.not_mem_reads (independent : first.Independent second)
    (written : location ∈ first.writes) : location ∉ second.reads :=
  fun read => (independent.1 _ (home_mem_outputs written)).1 (home_mem_inputs read)

theorem Independent.not_mem_writes (independent : first.Independent second)
    (written : location ∈ first.writes) : location ∉ second.writes :=
  fun also => (independent.1 _ (home_mem_outputs written)).2 (home_mem_outputs also)

/-- What an operation writes is the same whether an independent one came before it or not. -/
theorem Independent.view_perform (independent : first.Independent second)
    (value other : Word) (registers : Registers) (written : location ∈ first.writes) :
    (first.perform value (second.perform other registers)).view location =
      (first.perform value registers).view location := by
  apply view_perform_congr _ written
  intro read listed
  exact view_perform_of_not_mem fun changed => independent.symm.not_mem_reads changed listed

/-- Independent operations can change places. -/
theorem Independent.perform_comm (independent : first.Independent second)
    (value other : Word) (registers : Registers) :
    second.perform other (first.perform value registers) =
      first.perform value (second.perform other registers) := by
  apply Registers.ext_view
  intro location
  by_cases byFirst : location ∈ first.writes
  · rw [view_perform_of_not_mem (independent.not_mem_writes byFirst),
      independent.view_perform value other registers byFirst]
  · rw [view_perform_of_not_mem byFirst]
    by_cases bySecond : location ∈ second.writes
    · exact independent.symm.view_perform other value registers bySecond
    · rw [view_perform_of_not_mem bySecond, view_perform_of_not_mem byFirst,
        view_perform_of_not_mem bySecond]

end Operation

/-! ## Reordered programs -/

/-- Programs that arise from one another by exchanges of independent neighbours. -/
inductive Reordered : List Instruction → List Instruction → Prop
  | refl (program : List Instruction) : Reordered program program
  | swap (before after : List Instruction) {first second : Instruction}
      {other : List Instruction}
      (independent : first.operation.Independent second.operation)
      (rest : Reordered (before ++ second :: first :: after) other) :
      Reordered (before ++ first :: second :: after) other

namespace Reordered

variable {program other : List Instruction}

theorem perm (reordered : Reordered program other) : program.Perm other := by
  induction reordered with
  | refl program => exact .refl program
  | swap before after _ _ ih => exact .trans (.append_left before (.swap _ _ after)) ih

/-- A reordered program has the same effects. -/
theorem performAll_eq (reordered : Reordered program other) (registers : Registers) :
    performAll program registers = performAll other registers := by
  induction reordered with
  | refl program => rfl
  | @swap before after first second other independent _ ih =>
      have exchange := independent.perform_comm first.immediate second.immediate
        (performAll before registers)
      rw [← ih]
      simp only [performAll, List.foldl_append, List.foldl_cons] at exchange ⊢
      rw [exchange]

end Reordered

theorem spentCycles_perm {operations other : List Operation} (perm : operations.Perm other) :
    spentCycles operations = spentCycles other := by
  induction perm with
  | nil => rfl
  | cons operation _ ih => exact congrArg (operation.cycles + ·) ih
  | swap first second rest => exact Nat.add_left_comm _ _ _
  | trans _ _ ih ihOther => exact ih.trans ihOther

theorem length_assemble_perm {program other : List Instruction} (perm : program.Perm other) :
    (assemble program).length = (assemble other).length :=
  (perm.flatMap_right Instruction.bytes).length_eq

/-! ## Their runs -/

/-- Two runs without fault that take the same number of cycles to the same state. -/
def Run.EndAlike (run other : Run) : Prop :=
  run.cpu = other.cpu ∧ ∃ total, run.outcome = .ok total ∧ other.outcome = .ok total

/-- Two programs whose runs end alike from wherever both stand at the program counter, and in
particular after either is copied into memory. -/
structure Interchangeable (program other : List Instruction) : Prop where
  held : ∀ (cpu : Cpu) (bus second : Bus), bus.Holds cpu.pc (assemble program) →
    second.Holds cpu.pc (assemble other) →
      (cpu.run bus program.length).EndAlike (cpu.run second other.length)
  loaded : ∀ (cpu : Cpu) (memory : Memory),
    cpu.pc.toNat + (assemble program).length ≤ memorySize →
      ∃ first second : Memory,
        (memory.load cpu.pc.toNat (assemble program)).value = .ok first ∧
        (memory.load cpu.pc.toNat (assemble other)).value = .ok second ∧
        (cpu.run first.read program.length).EndAlike (cpu.run second.read other.length)

/-- Exchanges of independent neighbours leave programs interchangeable. -/
theorem Reordered.interchangeable {program other : List Instruction}
    (reordered : Reordered program other) : Interchangeable program other := by
  have size := length_assemble_perm reordered.perm
  have together : ∀ (cpu : Cpu) (bus second : Bus), bus.Holds cpu.pc (assemble program) →
      second.Holds cpu.pc (assemble other) →
        (cpu.run bus program.length).EndAlike (cpu.run second other.length) := by
    intro cpu bus second held heldOther
    obtain ⟨final, outcome⟩ := Cpu.run_of_holds held
    obtain ⟨finalOther, outcomeOther⟩ := Cpu.run_of_holds heldOther
    refine ⟨?_, _, outcome, ?_⟩
    · rw [final, finalOther, reordered.performAll_eq, size]
    · have cycles := spentCycles_perm (reordered.perm.map Instruction.operation)
      rw [outcomeOther, totalCycles, totalCycles, cycles]
  refine ⟨together, ?_⟩
  intro cpu memory fits
  have fitsOther : cpu.pc.toNat + (assemble other).length ≤ memorySize := size ▸ fits
  exact ⟨_, _, memory.value_load_of_fits fits, memory.value_load_of_fits fitsOther,
    together cpu _ _ (memory.holds_store fits) (memory.holds_store fitsOther)⟩

/-- Independent instructions can be exchanged, and so can independent neighbours in a program of any
length, one exchange after another. -/
theorem run_reordered :
    (∀ first second : Instruction, first.operation.Independent second.operation →
        Interchangeable [first, second] [second, first]) ∧
      ∀ program other : List Instruction, Reordered program other →
        Interchangeable program other := by
  constructor
  · intro first second independent
    exact (Reordered.swap [] [] independent (.refl _)).interchangeable
  · intro program other reordered
    exact reordered.interchangeable

/-- A pair is counted up before or after an addition with carry, which takes its immediate value
along, and before or after a load of two registers that neither touches. -/
theorem run_reordered_across_end :
    let add : Instruction := ⟨.arithmetic .adc .immediate, 0x99⟩
    let load : Instruction := ⟨.loadPair .bc, 0x1234⟩
    let count : Instruction := ⟨.incrementPair .de, 0⟩
    let cpu : Cpu := ⟨{ a := 0x66, d := 0xFF, e := 0xFF, flags := { carry := true } }, 0xFFFD⟩
    let bus : Bus := fun address =>
      if address = 0xFFFD then 0xCE else if address = 0xFFFE then 0x99
      else if address = 0xFFFF then 0x01 else if address = 0 then 0x34
      else if address = 1 then 0x12 else 0x13
    let other : Bus := fun address =>
      if address = 0xFFFD then 0x13 else if address = 0xFFFE then 0xCE
      else if address = 0xFFFF then 0x99 else if address = 0 then 0x01
      else if address = 1 then 0x34 else 0x12
    let final : Cpu :=
      ⟨{ b := 0x12, c := 0x34, flags := { zero := true, halfCarry := true, carry := true } }, 3⟩
    add.operation.Independent count.operation ∧
      (∃ first second : Memory,
        (Memory.blank.load 0xFFFD (assemble [add, count])).value = .ok first ∧
        (Memory.blank.load 0xFFFD (assemble [count, add])).value = .ok second ∧
        (cpu.run first.read 2).EndAlike (cpu.run second.read 2)) ∧
      Reordered [add, load, count] [count, add, load] ∧
      bus.Holds 0xFFFD (assemble [add, load, count]) ∧
      other.Holds 0xFFFD (assemble [count, add, load]) ∧
      (cpu.run bus 3).cpu = final ∧ (cpu.run bus 3).outcome = .ok 28 ∧
      (cpu.run other 3).cpu = final ∧ (cpu.run other 3).outcome = .ok 28 := by
  intro add load count cpu bus other final
  have apart : add.operation.Independent count.operation := by decide
  have apartToo : load.operation.Independent count.operation := by decide
  have reordered : Reordered [add, load, count] [count, add, load] :=
    .swap [add] [] apartToo <| .swap [] [load] apart <| .refl _
  have held : bus.Holds 0xFFFD (assemble [add, load, count]) := by decide +kernel
  have heldOther : other.Holds 0xFFFD (assemble [count, add, load]) := by decide +kernel
  have reached : (cpu.run bus 3).cpu = final := by decide +kernel
  have outcome : (cpu.run bus 3).outcome = .ok 28 :=
    Run.outcome_eq_ok_iff.mpr ⟨by decide +kernel, by decide +kernel⟩
  obtain ⟨pairs, programs⟩ := run_reordered
  have copied := (pairs add count apart).loaded cpu Memory.blank (by decide)
  obtain ⟨same, total, taken, takenOther⟩ :=
    (programs _ _ reordered).held cpu bus other held heldOther
  obtain rfl : 28 = total := Except.ok.inj (outcome.symm.trans taken)
  exact ⟨apart, copied, reordered, held, heldOther, reached, outcome, same.symm.trans reached,
    takenOther⟩

end Sm83
