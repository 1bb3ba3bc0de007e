import Sm83.Monitor.Session
import Sm83.Proofs.Advance
import Sm83.Proofs.Layout.Basic

/-!
# Gaps in the opcode maps

The published table lists which opcodes are implemented. Main statement: a step fails exactly
where no listed opcode stands. Its fault names the bytes found there and their address, and
nothing else changes.

## Implementation notes

The table is a condition on numbers, row by row in the order in which it is published. It
knows neither the fields of the decoder nor operations. An operation has the number of a bit,
so it cannot be refused for a bad position. That this leaves nothing out is stated apart: the
byte in which an opcode holds the position is accepted wherever the opcode is implemented.
-/

namespace Sm83

/-- The bit on which an operation works, if it works on one. -/
def Operation.bit? : Operation → Option (Fin 8)
  | .checkBit position _ | .clearBit position _ | .setBit position _ => some position
  | _ => none

namespace Opcode

/-- The opcodes of one byte in the published table. Where a row of the table runs over all
registers, the codes that stand for memory are left out. -/
def Published (code : Nat) : Prop :=
  code = 0x00 ∨                                                      -- NOP
  code ∈ [0x01, 0x11, 0x21] ∨                                        -- LD rr,d16
  code ∈ [0x03, 0x13, 0x23, 0x0B, 0x1B, 0x2B] ∨                      -- INC rr, DEC rr
  code ∈ [0x04, 0x0C, 0x14, 0x1C, 0x24, 0x2C, 0x3C] ∨                -- INC r
  code ∈ [0x05, 0x0D, 0x15, 0x1D, 0x25, 0x2D, 0x3D] ∨                -- DEC r
  code ∈ [0x06, 0x0E, 0x16, 0x1E, 0x26, 0x2E, 0x3E] ∨                -- LD r,d8
  code ∈ [0x07, 0x0F, 0x17, 0x1F] ∨                                  -- RLCA, RRCA, RLA, RRA
  code ∈ [0x09, 0x19, 0x29] ∨                                        -- ADD HL,rr
  code ∈ [0x27, 0x2F, 0x37, 0x3F] ∨                                  -- DAA, CPL, SCF, CCF
  0x40 ≤ code ∧ code ≤ 0x7F ∧ code / 8 % 8 ≠ 6 ∧ code % 8 ≠ 6 ∨      -- LD r,r
  0x80 ≤ code ∧ code ≤ 0xBF ∧ code % 8 ≠ 6 ∨                         -- ALU A,r
  code ∈ [0xC6, 0xCE, 0xD6, 0xDE, 0xE6, 0xEE, 0xF6, 0xFE]            -- ALU A,d8

instance (code : Nat) : Decidable (Published code) := inferInstanceAs (Decidable (_ ∨ _))

/-- A byte is an opcode by itself exactly if the table lists it. -/
theorem decode_base_eq_none_iff (byte : Byte) :
    (base byte).decode = none ↔ ¬ Published byte.toNat := by
  revert byte
  decide +kernel

theorem ofNumber?_eq_none_iff (number : Fin 8) :
    DataRegister.ofNumber? number = none ↔ number.val = 6 := by
  revert number
  decide

/-- In the second map the gaps are the column of memory. -/
theorem decode_extended_eq_none_iff (byte : Byte) :
    (extended byte).decode = none ↔ byte.toNat % 8 = 6 := by
  have column : (OpcodeFields.ofByte byte).column.val = byte.toNat % 8 := by
    simp [OpcodeFields.ofByte]
  rw [decode, decodeExtended, Option.map_eq_none_iff, ofNumber?_eq_none_iff, column]

/-- An operation on a bit has an opcode of two bytes, and the position in the second one is
accepted. -/
theorem exists_bitPosition_of_decode {code : Opcode} {operation : Operation} {position : Fin 8}
    (decoded : code.decode = some operation) (onBit : operation.bit? = some position) :
    ∃ second, code = .extended second ∧ bitPosition ((second >>> 3) &&& 7) = .ok position := by
  have accepted (page : Fin 4) (row column : Fin 8) :
      bitPosition ((Layout.second (0x40 * page) row column >>> 3) &&& 7) = .ok row := by
    rw [Layout.row_second, bitPosition_ofNat]
  obtain rfl := opcode_of_decode decoded
  cases operation with
  | checkBit row register =>
      cases onBit
      exact ⟨_, rfl, accepted 1 position register.number⟩
  | clearBit row register =>
      cases onBit
      exact ⟨_, rfl, accepted 2 position register.number⟩
  | setBit row register =>
      cases onBit
      exact ⟨_, rfl, accepted 3 position register.number⟩
  | _ => cases onBit

end Opcode

namespace Bus

variable (bus : Bus) (address : Word)

theorem decode_opcodeAt_eq_none_iff :
    (bus.opcodeAt address).decode = none ↔
      bus address ≠ 0xCB ∧ ¬ Opcode.Published (bus address).toNat ∨
        bus address = 0xCB ∧ (bus (address + 1)).toNat % 8 = 6 := by
  rw [opcodeAt, value_readOpcode, extension]
  by_cases extended : bus address = 0xCB
  · rw [if_pos extended, Opcode.decode_extended_eq_none_iff]
    simp only [extended, ne_eq, not_true_eq_false, false_and, true_and, false_or]
  · rw [if_neg extended, Opcode.decode_base_eq_none_iff]
    simp only [extended, ne_eq, not_false_eq_true, false_and, true_and, or_false]

theorem toNat_number_opcodeAt :
    (bus.opcodeAt address).number.toNat =
      if bus address = 0xCB then 0xCB00 + (bus (address + 1)).toNat
      else (bus address).toNat := by
  rw [opcodeAt, value_readOpcode, extension]
  by_cases extended : bus address = 0xCB
  · rw [if_pos extended, if_pos extended]
    exact toNat_joinBytes 0xCB _
  · rw [if_neg extended, if_neg extended, Opcode.number, toNat_joinBytes]
    exact Nat.zero_add _

end Bus

namespace Session

variable {session : Session}

/-- Where a step meets an operation on a bit, the position in the second byte is accepted: no step
is refused for the position of a bit. -/
theorem bitPosition_of_found {operation : Operation} {position : Fin 8}
    (found : (Bus.opcodeAt session.memory.read session.cpu.pc).decode = some operation)
    (onBit : operation.bit? = some position) :
    let second := session.memory.read (session.cpu.pc + 1)
    bitPosition ((second >>> 3) &&& 7) = .ok position := by
  obtain ⟨second, code, accepted⟩ := Opcode.exists_bitPosition_of_decode found onBit
  rw [Bus.opcodeAt, Bus.value_readOpcode] at code
  split at code
  · cases code
    exact accepted
  · cases code

/-- A step over an implemented opcode is answered with its cycles and addresses. -/
theorem answer_step_of_some {operation : Operation}
    (found : (Bus.opcodeAt session.memory.read session.cpu.pc).decode = some operation) :
    (session.perform .step).value.answer =
      .ok (.stepped operation.cycles (addresses session.cpu.pc operation.length)) := by
  rw [perform, step, Cpu.value_step_of_some found, Cpu.reads_step_of_some found]

/-- A step at a gap is refused, and the session stays as it is. -/
theorem value_step_of_none
    (gap : (Bus.opcodeAt session.memory.read session.cpu.pc).decode = none) :
    (session.perform .step).value =
      ⟨session, .error (.unimplemented (Bus.opcodeAt session.memory.read session.cpu.pc).number
        session.cpu.pc)⟩ := by
  rw [perform, step, Cpu.value_step_of_none gap]

/-- A step fails exactly at a gap in the published table. Its fault names the opcode found there,
and the session stays as it was. -/
theorem step_fails_iff (session : Session) :
    let pc := session.cpu.pc
    let first := session.memory.read pc
    let second := session.memory.read (pc + 1)
    let response := (session.perform .step).value
    ((∃ fault, response.answer = .error fault) ↔
        first ≠ 0xCB ∧ ¬ Opcode.Published first.toNat ∨
          first = 0xCB ∧ second.toNat % 8 = 6) ∧
      ∀ fault, response.answer = .error fault →
        response.session = session ∧
          ∃ opcode, fault = .unimplemented opcode pc ∧
            opcode.toNat = if first = 0xCB then 0xCB00 + second.toNat else first.toNat := by
  intro pc first second response
  rw [← Bus.decode_opcodeAt_eq_none_iff session.memory.read pc,
    ← Bus.toNat_number_opcodeAt session.memory.read pc]
  cases decoded : (Bus.opcodeAt session.memory.read pc).decode with
  | none =>
      have refused : response = _ := value_step_of_none decoded
      rw [refused]
      refine ⟨⟨fun _ => rfl, fun _ => ⟨_, rfl⟩⟩, ?_⟩
      rintro _ ⟨⟩
      exact ⟨rfl, _, rfl, rfl⟩
  | some operation =>
      have accepted : response.answer = _ := answer_step_of_some decoded
      rw [accepted]
      refine ⟨⟨?_, ?_⟩, ?_⟩
      · rintro ⟨_, ⟨⟩⟩
      · rintro ⟨⟩
      · rintro _ ⟨⟩

/-- The two bytes of an exchange of halves in memory stand on both sides of the end of the bus. -/
theorem step_fails_at_swap_memory :
    let memory := (Memory.blank.write 0xFFFF 0xCB).write 0 0x36
    let session : Session := { cpu := ⟨{ a := 0x12, flags := { carry := true } }, 0xFFFF⟩, memory }
    let response := (session.perform .step).value
    response.answer = .error (.unimplemented 0xCB36 0xFFFF) ∧ response.session = session := by
  intro memory session
  have first : memory.read 0xFFFF = 0xCB := by simp [memory, Memory.read_write]
  have second : memory.read (0xFFFF + 1) = 0x36 := by simp [memory, Memory.read_write]
  clear_value memory
  obtain ⟨fails, refused⟩ := step_fails_iff session
  obtain ⟨fault, answer⟩ := fails.mpr (.inr ⟨first, congrArg (·.toNat % 8) second⟩)
  obtain ⟨same, opcode, rfl, number⟩ := refused fault answer
  rw [if_pos first, show session.memory.read (session.cpu.pc + 1) = 0x36 from second] at number
  have code : opcode = 0xCB36 := BitVec.eq_of_toNat_eq (number.trans (by decide))
  rw [code] at answer
  exact ⟨answer, same⟩

end Session

end Sm83
