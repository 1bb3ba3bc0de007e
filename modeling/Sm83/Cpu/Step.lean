import Sm83.Bus
import Sm83.Opcode.Coverage
import Sm83.Operation.Perform

/-! # Single steps

A step reads an opcode at the program counter and the immediate value behind it, performs
the operation and moves on to the next instruction. All reads come first; an opcode that
is not implemented is reported and nothing changes. Main statements: the value, the reads
and the record of a step in both cases. -/

namespace Sm83

/-- The state after a step, and the clock cycles that it took. -/
structure Progress where
  cpu : Cpu
  cycles : Nat
  deriving DecidableEq, Repr

namespace Cpu

/-- The state after an operation. -/
def perform (cpu : Cpu) (operation : Operation) (immediate : Word) : Cpu where
  registers := operation.perform immediate cpu.registers
  pc := cpu.pc + BitVec.ofNat 16 operation.length

/-- Executes the instruction at the program counter. -/
def step (cpu : Cpu) (bus : Bus) : Traced (Except Fault Progress) := do
  let opcode ← bus.readOpcode cpu.pc
  match opcode.decode with
  | none =>
      Traced.log (.unimplemented cpu.pc opcode cpu.registers)
      return .error (.unimplemented opcode.number cpu.pc)
  | some operation =>
      let address := cpu.pc + BitVec.ofNat 16 opcode.bytes.length
      let immediate ← bus.readImmediate address operation.immediate
      let next := cpu.perform operation immediate
      Traced.log (.executed cpu.pc opcode operation next.registers)
      return .ok ⟨next, operation.cycles⟩

/-- An opcode that is not implemented is read and reported. -/
theorem step_of_decode_eq_none {cpu : Cpu} {bus : Bus}
    (gap : (bus.readOpcode cpu.pc).value.decode = none) :
    let opcode := (bus.readOpcode cpu.pc).value
    cpu.step bus =
      ⟨.error (.unimplemented opcode.number cpu.pc),
        (addresses cpu.pc opcode.bytes.length).map .read ++
          [.log (.unimplemented cpu.pc opcode cpu.registers)]⟩ := by
  simp only [step, bind, Traced.bind, gap, Bus.events_readOpcode]
  rfl

/-- An instruction is read in full, performed and reported. -/
theorem step_of_decode_eq_some {cpu : Cpu} {bus : Bus} {operation : Operation}
    (found : (bus.readOpcode cpu.pc).value.decode = some operation) :
    let opcode := (bus.readOpcode cpu.pc).value
    let address := cpu.pc + BitVec.ofNat 16 opcode.bytes.length
    let immediate := (bus.readImmediate address operation.immediate).value
    let next := cpu.perform operation immediate
    cpu.step bus =
      ⟨.ok ⟨next, operation.cycles⟩,
        (addresses cpu.pc operation.length).map .read ++
          [.log (.executed cpu.pc opcode operation next.registers)]⟩ := by
  have size := operation.length_opcode_add_size
  rw [Opcode.opcode_of_decode found] at size
  simp only [step, bind, Traced.bind, found, Bus.events_readOpcode, Bus.events_readImmediate,
    ← size, addresses_add, List.map_append, List.append_assoc]
  rfl

end Cpu

end Sm83
