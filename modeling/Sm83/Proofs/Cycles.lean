import Sm83.Memory.Basic
import Sm83.Proofs.Execution

/-!
# Clock cycles of a run

Four clock cycles go by for every byte that is read, and four more for every operation on the
words of pairs. Main statement: this accounts for the cycles of every run, which therefore add up
without loss as long as twelve cycles for each step cannot exceed the counter, and no longer.
-/

namespace Sm83

/-- Whether an operation counts a pair up or down or adds one to another. -/
def Operation.onWords : Operation → Bool
  | .incrementPair _ | .decrementPair _ | .addHl _ => true
  | _ => false

/-- The clock cycles of operations, all together. -/
def spentCycles : List Operation → Nat
  | [] => 0
  | operation :: rest => operation.cycles + spentCycles rest

namespace Operation

/-- Every byte of an instruction takes four cycles, and work on words four more. -/
theorem cycles_eq (operation : Operation) :
    operation.cycles = 4 * operation.length + if operation.onWords then 4 else 0 := by
  cases operation with
  | load _ source | arithmetic _ source => cases source <;> rfl
  | _ => rfl

theorem four_le_cycles (operation : Operation) : 4 ≤ operation.cycles := by
  have := operation.length_pos
  rw [cycles_eq]
  omega

end Operation

theorem spentCycles_eq (operations : List Operation) :
    spentCycles operations =
      4 * totalLength operations + 4 * operations.countP Operation.onWords := by
  induction operations with
  | nil => rfl
  | cons operation rest ih =>
      rw [spentCycles, totalLength, List.countP_cons, ih, operation.cycles_eq]
      split <;> omega

theorem four_mul_length_le_spentCycles (operations : List Operation) :
    4 * operations.length ≤ spentCycles operations := by
  induction operations with
  | nil => simp
  | cons operation rest ih =>
      have := operation.four_le_cycles
      rw [spentCycles, List.length_cons]
      omega

theorem spentCycles_le (operations : List Operation) :
    spentCycles operations ≤ 12 * operations.length := by
  induction operations with
  | nil => simp [spentCycles]
  | cons operation rest ih =>
      have := operation.cycles_le_twelve
      rw [spentCycles, List.length_cons]
      omega

/-! ## The counter of a run -/

variable {bus : Bus} {cpu final : Cpu} {operations : List Operation}

theorem Run.cycles_proceed_of_executes {run : Run} (going : run.fault = none)
    (executes : Executes bus run.cpu operations final) :
    (run.proceed bus operations.length).cycles =
      run.cycles + BitVec.ofNat 64 (spentCycles operations) := by
  refine executes_induction (motive := fun run operations _ =>
    (run.proceed bus operations.length).cycles =
      run.cycles + BitVec.ofNat 64 (spentCycles operations)) ?_ ?_ going executes
  · intro run going
    exact (BitVec.add_zero _).symm
  · intro run operation rest final going found rest_cycles
    rw [List.length_cons, proceed_succ, rest_cycles, advance_of_some going found, spentCycles,
      BitVec.ofNat_add, BitVec.add_assoc]

namespace Cpu

/-- Of a run short enough the counter shows all cycles. -/
theorem cycles_run_of_executes (executes : Executes bus cpu operations final)
    (few : operations.length ≤ 1537228672809129301) :
    (cpu.run bus operations.length).cycles.toNat = spentCycles operations := by
  have bound := spentCycles_le operations
  have started : ({ cpu } : Run).fault = none := rfl
  have counted := Run.cycles_proceed_of_executes started executes
  have unspent : ({ cpu } : Run).cycles.toNat = 0 := rfl
  rw [run, counted, BitVec.toNat_add, unspent, BitVec.toNat_ofNat]
  omega

theorem cycles_le_twelve_of_stepped {progress : Progress}
    (stepped : (cpu.step bus).value = .ok progress) : progress.cycles ≤ 12 := by
  obtain ⟨operation, found⟩ := exists_operation_of_stepped stepped
  rw [value_step_of_some found] at stepped
  cases stepped
  exact operation.cycles_le_twelve

end Cpu

/-- Where all addresses show the same instruction, it is executed again and again. -/
theorem exists_executes_of_forall {operation : Operation}
    (found : ∀ address, (bus.opcodeAt address).decode = some operation) (count : Nat)
    (cpu : Cpu) :
    ∃ operations final, Executes bus cpu operations final ∧ operations.length = count ∧
      spentCycles operations = count * operation.cycles := by
  induction count generalizing cpu with
  | zero => exact ⟨[], cpu, .done cpu, rfl, (Nat.zero_mul _).symm⟩
  | succ count ih =>
      obtain ⟨operations, final, executes, length, spent⟩ :=
        ih (cpu.perform operation (bus.immediateAt cpu.pc operation))
      refine ⟨operation :: operations, final,
        .step (found cpu.pc) (Cpu.value_step_of_some (found cpu.pc)) executes,
        congrArg (· + 1) length, ?_⟩
      rw [spentCycles, spent, Nat.succ_mul, Nat.add_comm]

/-- Memory that holds one byte everywhere. -/
def Memory.filled (byte : Byte) : Memory := ⟨.replicate memorySize byte⟩

theorem Memory.read_filled (byte : Byte) : (filled byte).read = fun _ => byte := by
  funext address
  simp [filled, read, Vector.get]

theorem decode_opcodeAt_filled (address : Word) :
    (Bus.opcodeAt (Memory.filled 0x01).read address).decode = some (.loadPair .bc) := by
  rw [Bus.opcodeAt, Bus.value_readOpcode, Memory.read_filled]
  exact Opcode.decode_opcode (.loadPair .bc)

/-- The cycles of executed instructions are those of their reads and of their work on words. A run
of at most 1537228672809129301 steps counts them without overflow and returns all of them, and
one more step can be too many. -/
theorem Cpu.run_cycles (cpu : Cpu) (bus : Bus) :
    (∀ operations final, Executes bus cpu operations final →
        let k := operations.length
        spentCycles operations =
            4 * (cpu.run bus k).reads.length + 4 * operations.countP Operation.onWords ∧
          4 * k ≤ spentCycles operations ∧ spentCycles operations ≤ 12 * k) ∧
      (∀ limit, limit ≤ 1537228672809129301 →
        (∀ count, count < limit → (cpu.run bus count).fault = none →
          ∀ progress, ((cpu.run bus count).cpu.step bus).value = .ok progress →
            (cpu.run bus count).cycles.toNat + progress.cycles < 0x10000000000000000) ∧
        ∀ total, (cpu.run bus limit).outcome = .ok total →
          ∃ operations, Executes bus cpu operations (cpu.run bus limit).cpu ∧
            operations.length = limit ∧ total.toNat = spentCycles operations) ∧
      ∃ operations final, Executes (Memory.filled 0x01).read cpu operations final ∧
        operations.length = 1537228672809129302 ∧
        0xFFFFFFFFFFFFFFFF < spentCycles operations := by
  refine ⟨?_, ?_, ?_⟩
  · intro operations final executes k
    obtain ⟨-, -, reads⟩ := run_of_executes executes
    rw [reads, length_addresses]
    exact ⟨spentCycles_eq operations, four_mul_length_le_spentCycles operations,
      spentCycles_le operations⟩
  · intro limit few
    constructor
    · intro count inside going progress stepped
      obtain ⟨operations, executes, rfl⟩ := executes_run_of_going going
      have bound := spentCycles_le operations
      have last := cycles_le_twelve_of_stepped stepped
      rw [cycles_run_of_executes executes (by omega)]
      omega
    · intro total outcome
      obtain ⟨going, rfl⟩ := Run.outcome_eq_ok_iff.mp outcome
      obtain ⟨operations, executes, rfl⟩ := executes_run_of_going going
      exact ⟨operations, executes, rfl, cycles_run_of_executes executes few⟩
  · obtain ⟨operations, final, executes, length, spent⟩ :=
      exists_executes_of_forall decode_opcodeAt_filled 1537228672809129302 cpu
    refine ⟨operations, final, executes, length, ?_⟩
    rw [spent]
    decide

/-- A pair is loaded, counted up past its end and added to another: of the 28 cycles, 20 are those
of five reads. -/
theorem Cpu.run_cycles_past_end :
    let bus : Bus := fun address =>
      if address = 2 then 0x19 else if address = 1 then 0x13
      else if address = 0xFFFE then 0x11 else 0xFF
    let cpu : Cpu := ⟨{ h := 0x12 }, 0xFFFE⟩
    let operations : List Operation := [.loadPair .de, .incrementPair .de, .addHl .de]
    (∃ final, Executes bus cpu operations final) ∧
      28 = 4 * (cpu.run bus 3).reads.length + 4 * 2 ∧
      (cpu.run bus 3).outcome = .ok 28 ∧
      (∃ counted, Executes bus cpu counted (cpu.run bus 3).cpu ∧ counted.length = 3 ∧
        28 = spentCycles counted) ∧
      (cpu.run bus 2).cycles.toNat + 8 < 0x10000000000000000 := by
  intro bus cpu operations
  have load : (bus.opcodeAt cpu.pc).decode = some (.loadPair .de) := by decide +kernel
  let second := cpu.perform (.loadPair .de) (bus.immediateAt cpu.pc (.loadPair .de))
  have count : (bus.opcodeAt second.pc).decode = some (.incrementPair .de) := by decide +kernel
  let third := second.perform (.incrementPair .de)
    (bus.immediateAt second.pc (.incrementPair .de))
  have add : (bus.opcodeAt third.pc).decode = some (.addHl .de) := by decide +kernel
  have executes : Executes bus cpu operations _ :=
    .step load (value_step_of_some load) <| .step count (value_step_of_some count) <|
      .step add (value_step_of_some add) (.done _)
  have outcome : (cpu.run bus 3).outcome = .ok 28 :=
    Run.outcome_eq_ok_iff.mpr ⟨by decide +kernel, by decide +kernel⟩
  obtain ⟨balances, counts, -⟩ := Cpu.run_cycles cpu bus
  obtain ⟨balance, -, -⟩ := balances operations _ executes
  obtain ⟨fits, returns⟩ := counts 3 (by decide)
  have reached : (cpu.run bus 2).cpu = third := by decide +kernel
  refine ⟨⟨_, executes⟩, balance, outcome, returns 28 outcome, ?_⟩
  exact fits 2 (by decide) (by decide +kernel) _ (reached ▸ value_step_of_some add)

end Sm83
