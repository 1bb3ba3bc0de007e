import Sm83.Assembly
import Sm83.Memory.Stretch
import Sm83.Proofs.Advance

/-!
# Bytes in place

When the bytes of an instruction stand at the program counter, a step executes exactly
that instruction. A block copied into memory stands where it was copied to.
-/

namespace Sm83

theorem getElem_addresses {start : Word} {count index : Nat}
    (inside : index < (addresses start count).length) :
    (addresses start count)[index] = start + BitVec.ofNat 16 index := by
  simp [addresses]

namespace Bus

/-- The bytes stand at successive addresses from one on, going round at the end of the bus. -/
def Holds (bus : Bus) (start : Word) (bytes : List Byte) : Prop :=
  (addresses start bytes.length).map bus = bytes

instance (bus : Bus) (start : Word) (bytes : List Byte) : Decidable (bus.Holds start bytes) :=
  inferInstanceAs (Decidable (_ = _))

variable {bus : Bus} {start : Word}

theorem holds_append {first second : List Byte} :
    bus.Holds start (first ++ second) ↔
      bus.Holds start first ∧ bus.Holds (start + BitVec.ofNat 16 first.length) second := by
  rw [Holds, List.length_append, addresses_add, List.map_append]
  constructor
  · intro held
    exact List.append_inj held (by simp)
  · rintro ⟨heldFirst, heldSecond⟩
    rw [heldFirst, heldSecond]

theorem holds_one {byte : Byte} : bus.Holds start [byte] ↔ bus start = byte := by
  simp [Holds, addresses]

theorem holds_two {low high : Byte} :
    bus.Holds start [low, high] ↔ bus start = low ∧ bus (start + 1) = high := by
  simp [Holds, addresses, List.range_succ]

/-- An opcode in place is the opcode that is read there. -/
theorem opcodeAt_of_holds {operation : Operation}
    (held : bus.Holds start operation.opcode.bytes) :
    bus.opcodeAt start = operation.opcode := by
  have found := Opcode.decode_opcode operation
  rw [opcodeAt, value_readOpcode]
  cases code : operation.opcode with
  | base byte =>
      rw [code] at held found
      have here : bus start = byte := holds_one.mp held
      -- Byte 0xCB alone is no opcode, so nothing after it is taken for a part of this one.
      have alone : byte ≠ extension := by
        rintro rfl
        cases found
      rw [here, if_neg alone]
  | extended byte =>
      rw [code] at held
      obtain ⟨here, next⟩ := holds_two.mp held
      rw [if_pos here, next]

end Bus

/-- The part of a word that an immediate value keeps. -/
def Immediate.kept : Immediate → Word → Word
  | .absent, _ => 0
  | .byte, value => joinBytes 0 (lowByte value)
  | .word, value => value

/-- An operation looks at no more than its immediate value keeps. -/
theorem Operation.perform_kept (operation : Operation) (value : Word) (registers : Registers) :
    operation.perform (operation.immediate.kept value) registers =
      operation.perform value registers := by
  cases operation with
  | load destination source =>
      cases source <;> simp [perform, immediate, Immediate.kept, Source.operand]
  | arithmetic op source =>
      cases source <;> simp [perform, immediate, Immediate.kept, Source.operand]
  | _ => rfl

theorem Bus.immediateAt_of_holds {bus : Bus} {start : Word} {instruction : Instruction}
    (held : bus.Holds start instruction.bytes) :
    bus.immediateAt start instruction.operation =
      instruction.operation.immediate.kept instruction.immediate := by
  have behind := (holds_append.mp held).2
  rw [immediateAt]
  cases kind : instruction.operation.immediate with
  | absent => rfl
  | byte =>
      rw [kind] at behind
      have low := holds_one.mp behind
      simp [readImmediate, Immediate.kept, low]
  | word =>
      rw [kind] at behind
      obtain ⟨low, high⟩ := holds_two.mp behind
      simp only [readImmediate, Traced.value_bind, value_read, Traced.value_pure,
        Immediate.kept, low, high, joinBytes_highByte_lowByte]

theorem Bus.decode_opcodeAt_of_holds {bus : Bus} {start : Word} {instruction : Instruction}
    (held : bus.Holds start instruction.bytes) :
    (bus.opcodeAt start).decode = some instruction.operation := by
  rw [opcodeAt_of_holds (holds_append.mp held).1, Opcode.decode_opcode]

/-- A step executes the instruction whose bytes stand at the program counter. -/
theorem Cpu.value_step_of_holds {cpu : Cpu} {bus : Bus} {instruction : Instruction}
    (held : bus.Holds cpu.pc instruction.bytes) :
    (cpu.step bus).value = .ok ⟨instruction.perform cpu, instruction.operation.cycles⟩ := by
  rw [value_step_of_some (Bus.decode_opcodeAt_of_holds held), Bus.immediateAt_of_holds held]
  simp only [Instruction.perform, Cpu.perform, Operation.perform_kept]

/-- A copied block stands where it was copied to. -/
theorem Memory.holds_store (memory : Memory) {start : Word} {block : List Byte}
    (fits : start.toNat + block.length ≤ memorySize) :
    Bus.Holds (memory.store start.toNat block).read start block := by
  apply List.ext_getElem
  · simp
  · intro index inside insideBlock
    have below : start.toNat + index < 2 ^ 16 := by
      simp only [memorySize] at fits
      omega
    have address : (start + BitVec.ofNat 16 index).toNat = start.toNat + index := by
      rw [BitVec.toNat_add, BitVec.toNat_ofNat, Nat.add_mod_mod, Nat.mod_eq_of_lt below]
    rw [List.getElem_map, getElem_addresses, read_store, address,
      if_pos (Nat.le_add_right _ index), Nat.add_sub_cancel_left,
      List.getElem?_eq_getElem insideBlock, Option.getD_some]

end Sm83
