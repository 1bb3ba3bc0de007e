import Sm83.Proofs.Placement

/-!
# What a step fetches

The bytes that a step reads are those of one instruction, or of an opcode that is not
implemented. They alone decide what the step does: where another bus holds them at the
program counter, a step does the same.
-/

namespace Sm83

namespace Bus

variable {bus other : Bus} {address place : Word} {operation : Operation}

/-- The bytes of the instruction at an address, or of the opcode there if it is not implemented. -/
def code (bus : Bus) (address : Word) : List Byte :=
  match (bus.opcodeAt address).decode with
  | some operation => Instruction.bytes ⟨operation, bus.immediateAt address operation⟩
  | none => (bus.opcodeAt address).bytes

theorem code_of_some (found : (bus.opcodeAt address).decode = some operation) :
    bus.code address = Instruction.bytes ⟨operation, bus.immediateAt address operation⟩ := by
  rw [code, found]

theorem code_of_none (gap : (bus.opcodeAt address).decode = none) :
    bus.code address = (bus.opcodeAt address).bytes := by
  rw [code, gap]

theorem length_code_of_some (found : (bus.opcodeAt address).decode = some operation) :
    (bus.code address).length = operation.length := by
  rw [code_of_some found, Instruction.length_bytes]

/-- At a gap only the opcode is there to be read. -/
theorem length_code_of_none (gap : (bus.opcodeAt address).decode = none) :
    (bus.code address).length = if bus address = 0xCB then 2 else 1 := by
  rw [code_of_none gap, opcodeAt, value_readOpcode, extension]
  split <;> rfl

theorem holds_opcodeAt (bus : Bus) (address : Word) :
    bus.Holds address (bus.opcodeAt address).bytes := by
  rw [opcodeAt, value_readOpcode]
  by_cases extended : bus address = extension
  · rw [if_pos extended]
    exact holds_two.mpr ⟨extended, rfl⟩
  · rw [if_neg extended]
    exact holds_one.mpr rfl

/-- The bytes of an opcode that is read somewhere are read as this opcode everywhere. -/
theorem opcodeAt_eq_of_holds (held : other.Holds place (bus.opcodeAt address).bytes) :
    other.opcodeAt place = bus.opcodeAt address := by
  rw [opcodeAt, opcodeAt, value_readOpcode, value_readOpcode]
  rw [opcodeAt, value_readOpcode] at held
  by_cases extended : bus address = extension
  · rw [if_pos extended] at held ⊢
    obtain ⟨here, next⟩ := holds_two.mp held
    rw [if_pos here, next]
  · rw [if_neg extended] at held ⊢
    have here := holds_one.mp held
    rw [here, if_neg extended]

theorem holds_immediateAt (bus : Bus) (address : Word) (operation : Operation) :
    bus.Holds (address + BitVec.ofNat 16 operation.opcode.bytes.length)
      (operation.immediate.bytes (bus.immediateAt address operation)) := by
  rw [immediateAt]
  cases operation.immediate with
  | absent => rfl
  | byte => exact holds_one.mpr (lowByte_joinBytes 0 _).symm
  | word => exact holds_two.mpr ⟨(lowByte_joinBytes _ _).symm, (highByte_joinBytes _ _).symm⟩

theorem holds_code (bus : Bus) (address : Word) : bus.Holds address (bus.code address) := by
  cases decoded : (bus.opcodeAt address).decode with
  | none =>
      rw [code_of_none decoded]
      exact holds_opcodeAt bus address
  | some operation =>
      rw [code_of_some decoded, Instruction.bytes]
      have opcode := holds_opcodeAt bus address
      rw [← Opcode.opcode_of_decode decoded] at opcode
      exact holds_append.mpr ⟨opcode, holds_immediateAt bus address operation⟩

theorem opcodeAt_of_holds_code (held : other.Holds place (bus.code address)) :
    other.opcodeAt place = bus.opcodeAt address := by
  apply opcodeAt_eq_of_holds
  cases decoded : (bus.opcodeAt address).decode with
  | none => exact code_of_none decoded ▸ held
  | some operation =>
      rw [code_of_some decoded] at held
      rw [← Opcode.opcode_of_decode decoded]
      exact (holds_append.mp held).1

theorem immediateAt_of_holds_code (found : (bus.opcodeAt address).decode = some operation)
    (held : other.Holds place (bus.code address)) :
    other.immediateAt place operation = bus.immediateAt address operation := by
  have own := holds_code bus address
  rw [code_of_some found] at held own
  exact (immediateAt_of_holds held).trans (immediateAt_of_holds own).symm

end Bus

namespace Cpu

variable {cpu : Cpu} {bus other : Bus}

/-- A step reads the bytes of its instruction, one after another, and no others. -/
theorem reads_step (cpu : Cpu) (bus : Bus) :
    (cpu.step bus).reads = addresses cpu.pc (bus.code cpu.pc).length := by
  cases decoded : (bus.opcodeAt cpu.pc).decode with
  | none => rw [reads_step_of_none decoded, Bus.code_of_none decoded]
  | some operation => rw [reads_step_of_some decoded, Bus.length_code_of_some decoded]

/-- A step is the same on every bus that holds the bytes that it reads. -/
theorem step_congr (agree : ∀ address ∈ (cpu.step bus).reads, other address = bus address) :
    cpu.step other = cpu.step bus := by
  have held : other.Holds cpu.pc (bus.code cpu.pc) := by
    rw [reads_step] at agree
    exact (List.map_congr_left agree).trans (Bus.holds_code bus cpu.pc)
  have opcode : (other.readOpcode cpu.pc).value = (bus.readOpcode cpu.pc).value :=
    Bus.opcodeAt_of_holds_code held
  cases decoded : (bus.readOpcode cpu.pc).value.decode with
  | none =>
      rw [step_of_decode_eq_none (opcode ▸ decoded), step_of_decode_eq_none decoded, opcode]
  | some operation =>
      have immediate := Bus.immediateAt_of_holds_code decoded held
      rw [Bus.immediateAt, Bus.immediateAt, Opcode.opcode_of_decode decoded] at immediate
      rw [step_of_decode_eq_some (opcode ▸ decoded), step_of_decode_eq_some decoded, opcode,
        immediate]

end Cpu

end Sm83
