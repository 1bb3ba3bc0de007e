import Sm83.Monitor.Session
import Sm83.Proofs.Advance
import Sm83.Proofs.Layout.Basic

/-!
# Steps and methods agree

Decoding an opcode and performing its operation is one way to new registers; calling the
method that the layout assigns to the opcode is another. Main statement: a step over an
implemented opcode leaves exactly the registers that the layout asks for.

## Implementation notes

Methods are carried out by a monitor session, so that one that could be refused has to
succeed. Arithmetic with the next byte has no method of its own. The byte is put into a
scratch register first, and only what the method leaves in A and in F counts.
-/

namespace Sm83.Layout

/-- A command is carried out on these registers in every session, and leaves the others. -/
def Leaves (registers : Registers) (command : Command) (after : Registers) : Prop :=
  ∀ session : Session, session.cpu.registers = registers →
    (session.perform command).value = ⟨session.setRegisters after, .ok .nothing⟩

/-- The registers that the layout asks for, from these registers and the two bytes behind the
opcode. -/
inductive Prescribed (low high : Byte) (registers : Registers) : Opcode → Registers → Prop
  | nop : Prescribed low high registers (base 0x00) registers
  | command {code command after} (assigned : Assigned low high registers code command)
      (leaves : Leaves registers command after) : Prescribed low high registers code after
  | combineNext (row : Fin 8) {scratch : Register} {method after : Registers}
      (notA : scratch ≠ .a) (notF : scratch ≠ .f)
      (leaves : Leaves (registers.set scratch low)
        (.update (.combine (byteOp row) scratch .a)) method)
      (sameA : after.get .a = method.get .a) (sameF : after.get .f = method.get .f)
      (others : ∀ register, register ≠ .a → register ≠ .f →
        after.get register = registers.get register) :
      Prescribed low high registers (base (0xC6 + 8 * row)) after

variable {low high : Byte} {registers : Registers}

/-! ## What methods leave -/

theorem Leaves.unique {command : Command} {first second : Registers}
    (leavesFirst : Leaves registers command first)
    (leavesSecond : Leaves registers command second) : first = second := by
  have same := (leavesFirst { cpu := { registers } } rfl).symm.trans
    (leavesSecond { cpu := { registers } } rfl)
  exact congrArg (fun response => response.session.cpu.registers) same

theorem leaves_update (update : Update) :
    Leaves registers (.update update) (update.apply registers) := by
  rintro session rfl
  rfl

/-! ## What operations leave -/

/-- The immediate value in the two bytes behind an opcode. -/
def nextBytes (low high : Byte) : Immediate → Word
  | .absent => 0
  | .byte => joinBytes 0 low
  | .word => joinBytes high low

theorem ofNat_eq_joinBytes (low high : Byte) :
    BitVec.ofNat 16 (low.toNat + 256 * high.toNat) = joinBytes high low := by
  apply BitVec.eq_of_toNat_eq
  have hlow := low.isLt
  have hhigh := high.isLt
  rw [toNat_joinBytes, BitVec.toNat_ofNat]
  omega

theorem operand_nextBytes (low high : Byte) (registers : Registers) :
    Source.immediate.operand (nextBytes low high .byte) registers = low :=
  lowByte_joinBytes 0 low

/-- A method leaves what its operation leaves. -/
theorem leaves_of_method? {operation : Operation} {command : Command}
    (method : method? low high registers operation = some command) :
    Leaves registers command
      (operation.perform (nextBytes low high operation.immediate) registers) := by
  cases operation with
  | nop => cases method
  | load destination source =>
      cases source with
      | register source => cases method; exact leaves_update _
      | immediate =>
          cases method
          rw [Operation.perform, Operation.immediate, operand_nextBytes]
          exact leaves_update _
  | loadPair pair =>
      cases method
      rw [ofNat_eq_joinBytes]
      exact leaves_update _
  | arithmetic op source =>
      cases source with
      | register source => cases method; exact leaves_update _
      | immediate => cases method
  | checkBit position register | clearBit position register | setBit position register =>
      cases method
      rintro session rfl
      rw [Session.perform, bitPosition_ofNat]
      rfl
  | _ => cases method; exact leaves_update _

/-- Arithmetic with a byte is arithmetic with a scratch register that holds it, seen from A, F and
the registers that it does not touch. -/
theorem get_combine_scratch (op : ByteOp) {scratch : Register} (notA : scratch ≠ .a)
    (notF : scratch ≠ .f) (operand : Byte) {register : Register}
    (seen : register = .a ∨ register = .f) :
    ((Update.combine op scratch .a).apply (registers.set scratch operand)).get register =
      (registers.combine op .a operand).get register := by
  obtain ⟨named, rfl⟩ := DataRegister.exists_toRegister notF
  have held : (registers.set named operand).get named = operand := by
    rw [Registers.get_set_self, DataRegister.keep_toRegister]
  have kept : (registers.set named operand).get .a = registers.get .a :=
    registers.get_set_of_ne (Ne.symm notA) operand
  have flags : (registers.set named operand).flags = registers.flags :=
    registers.flags_set_data named operand
  rw [Update.apply, held, Registers.get_combine, Registers.get_combine, kept, flags]
  rcases seen with rfl | rfl
  · by_cases stores : op.stores <;> simp [stores, kept]
  · simp

theorem get_combine_of_ne (op : ByteOp) (operand : Byte) {register : Register}
    (notA : register ≠ .a) (notF : register ≠ .f) :
    (registers.combine op .a operand).get register = registers.get register := by
  rw [Registers.get_combine, if_neg notF, if_neg (fun both => notA both.1)]

/-- The layout asks for exactly what the operation of an opcode leaves. -/
theorem prescribed_iff {operation : Operation} {after : Registers} :
    Prescribed low high registers operation.opcode after ↔
      after = operation.perform (nextBytes low high operation.immediate) registers := by
  constructor
  · intro prescribed
    generalize place : operation.opcode = code at prescribed
    cases prescribed with
    | nop =>
        obtain rfl : operation = .nop := Opcode.opcode_injective place
        rfl
    | command assigned leaves =>
        obtain ⟨other, same, method⟩ := assigned.exists_operation
        obtain rfl : operation = other := Opcode.opcode_injective (place.trans same.symm)
        exact leaves.unique (leaves_of_method? method)
    | @combineNext row scratch method _ notA notF leaves sameA sameF others =>
        obtain rfl : operation = .arithmetic (byteOp row) .immediate :=
          Opcode.opcode_injective (place.trans (opcode_combineNext row).symm)
        obtain rfl := leaves.unique (leaves_update _)
        rw [Operation.perform, Operation.immediate, operand_nextBytes]
        apply Registers.ext_get
        intro register
        by_cases isA : register = .a
        · rw [isA, sameA, get_combine_scratch _ notA notF low (.inl rfl)]
        · by_cases isF : register = .f
          · rw [isF, sameF, get_combine_scratch _ notA notF low (.inr rfl)]
          · rw [others register isA isF, get_combine_of_ne _ _ isA isF]
  · rintro rfl
    cases method : method? low high registers operation with
    | some command => exact .command (assigned_opcode method) (leaves_of_method? method)
    | none =>
        cases operation with
        | nop => exact .nop
        | load destination source => cases source <;> cases method
        | arithmetic op source =>
            cases source with
            | register source => cases method
            | immediate =>
                rw [← byteOp_number op, opcode_combineNext, Operation.perform,
                  Operation.immediate, operand_nextBytes]
                have notA : Register.b ≠ .a := by decide
                have notF : Register.b ≠ .f := by decide
                exact .combineNext op.number notA notF (leaves_update _)
                  (get_combine_scratch _ notA notF low (.inl rfl)).symm
                  (get_combine_scratch _ notA notF low (.inr rfl)).symm
                  (fun _ isA isF => get_combine_of_ne _ _ isA isF)
        | _ => cases method

/-! ## What a step leaves -/

/-- An immediate value stands behind an opcode of one byte. -/
theorem length_bytes_of_immediate {operation : Operation}
    (taken : operation.immediate ≠ .absent) : operation.opcode.bytes.length = 1 := by
  cases operation with
  | load _ source =>
      cases source with
      | register _ => exact absurd rfl taken
      | immediate => rfl
  | arithmetic _ source =>
      cases source with
      | register _ => exact absurd rfl taken
      | immediate => rfl
  | loadPair _ => rfl
  | _ => exact absurd rfl taken

theorem immediateAt_eq_nextBytes (bus : Bus) (address : Word) (operation : Operation) :
    bus.immediateAt address operation =
      nextBytes (bus (address + 1)) (bus (address + 2)) operation.immediate := by
  rw [Bus.immediateAt]
  cases kind : operation.immediate with
  | absent => rfl
  | byte =>
      rw [length_bytes_of_immediate (by simp [kind])]
      rfl
  | word =>
      have second : address + 1 + 1 = address + 2 := BitVec.add_assoc address 1 1
      rw [length_bytes_of_immediate (by simp [kind]), ← second]
      rfl

/-- A step over an implemented opcode leaves exactly the registers that the layout of opcodes asks
for, moves behind the instruction and takes the cycles of its operation. -/
theorem step_leaves_prescribed (cpu : Cpu) (bus : Bus) {operation : Operation}
    (found : (bus.opcodeAt cpu.pc).decode = some operation) :
    ∃ next, (cpu.step bus).value = .ok ⟨next, operation.cycles⟩ ∧
      next.pc.toNat = (cpu.pc.toNat + operation.length) % 65536 ∧
      ∀ after, Prescribed (bus (cpu.pc + 1)) (bus (cpu.pc + 2)) cpu.registers
        (bus.opcodeAt cpu.pc) after ↔ after = next.registers := by
  refine ⟨_, Cpu.value_step_of_some found, ?_, ?_⟩
  · rw [Cpu.perform, BitVec.toNat_add, BitVec.toNat_ofNat, Nat.add_mod_mod]
  · intro after
    rw [← Opcode.opcode_of_decode found, prescribed_iff, ← immediateAt_eq_nextBytes]
    rfl

/-- The immediate byte of an addition at the last address is the byte at the first. -/
theorem step_leaves_prescribed_add_next :
    let bus : Bus := fun address => if address = 0xFFFF then 0xCE else 0x0F
    let cpu : Cpu := ⟨{ a := 0xF0, flags := { carry := true } }, 0xFFFF⟩
    let after : Registers := { a := 0, flags := { zero := true, halfCarry := true, carry := true } }
    (bus.opcodeAt cpu.pc).decode = some (.arithmetic .adc .immediate) ∧
      (cpu.step bus).value = .ok ⟨⟨after, 1⟩, 8⟩ ∧
      Prescribed 0x0F 0x0F cpu.registers (base 0xCE) after := by
  intro bus cpu after
  have code : bus.opcodeAt cpu.pc = base 0xCE := by decide
  have low : bus (cpu.pc + 1) = 0x0F := by decide
  have high : bus (cpu.pc + 2) = 0x0F := by decide
  have found : (bus.opcodeAt cpu.pc).decode = some (.arithmetic .adc .immediate) := by decide
  have moved : cpu.perform (.arithmetic .adc .immediate)
      (bus.immediateAt cpu.pc (.arithmetic .adc .immediate)) = ⟨after, 1⟩ := by decide +kernel
  have value : (cpu.step bus).value = .ok ⟨⟨after, 1⟩, 8⟩ := by
    rw [Cpu.value_step_of_some found, moved]
    rfl
  obtain ⟨next, stepped, -, prescribed⟩ := step_leaves_prescribed cpu bus found
  rw [value] at stepped
  cases stepped
  rw [low, high, code] at prescribed
  exact ⟨found, value, (prescribed after).mpr rfl⟩

end Sm83.Layout
