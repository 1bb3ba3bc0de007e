import Sm83.Proofs.Bank.Basic

/-!
# Flag bytes are legal

The processor and the processor on plain bytes hold the same bytes after the same commands. Main
statement: whatever is done to a processor, the lower half of its flag byte is clear, and the byte
is that of the flags as they read.
-/

namespace Sm83

/-- The bytes that registers hold. -/
def Registers.bank (registers : Registers) : Bank := registers.get

/-- A processor as one on plain bytes. -/
def Cpu.banked (cpu : Cpu) : BankedCpu := ⟨cpu.registers.bank, cpu.pc⟩

/-- Every flag has its place in the upper half of the byte. -/
theorem Flags.toNat_toByte (flags : Flags) :
    flags.toByte.toNat =
      0x80 * flags.zero.toNat + 0x40 * flags.subtract.toNat + 0x20 * flags.halfCarry.toNat
        + 0x10 * flags.carry.toNat := by
  obtain ⟨_ | _, _ | _, _ | _, _ | _⟩ := flags <;> rfl

namespace Registers

variable (registers : Registers)

/-! ## Reading and storing -/

@[simp] theorem flags_bank : registers.bank.flags = registers.flags :=
  registers.ofByte_get_f

@[simp] theorem bank_apply (register : Register) :
    registers.bank register = registers.get register := rfl

@[simp] theorem word_bank (pair : Pair) : registers.bank.word pair = registers.getPair pair := rfl

@[simp] theorem store_bank (register : Register) (byte : Byte) :
    registers.bank.store register byte = (registers.set register byte).bank := by
  funext other
  exact (registers.get_set register other byte).symm

@[simp] theorem storeFlags_bank (flags : Flags) :
    registers.bank.storeFlags flags = { registers with flags }.bank := by
  funext other
  rw [Bank.storeFlags, Bank.store, flags.keep_toByte]
  cases other <;> rfl

@[simp] theorem storeWord_bank (pair : Pair) (word : Word) :
    registers.bank.storeWord pair word = (registers.setPair pair word).bank := by
  rw [Bank.storeWord, store_bank, store_bank]
  rfl

@[simp] theorem storeResult_bank (register : Register) (byte : Byte) (flags : Flags) :
    registers.bank.storeResult register byte flags =
      (registers.setWithFlags register byte flags).bank := by
  rw [Bank.storeResult, store_bank, storeFlags_bank]
  rfl

/-! ## Changes -/

@[simp] theorem combine_bank (op : ByteOp) (destination : Register) (operand : Byte) :
    registers.bank.combine op destination operand =
      (registers.combine op destination operand).bank := by
  simp only [Bank.combine, combine, flags_bank, bank_apply, storeResult_bank, storeFlags_bank]
  exact (apply_ite bank _ _ _).symm

@[simp] theorem increment_bank (register : Register) :
    registers.bank.increment register = (registers.increment register).bank := by
  simp only [Bank.increment, increment, flags_bank, bank_apply, storeResult_bank]

@[simp] theorem decrement_bank (register : Register) :
    registers.bank.decrement register = (registers.decrement register).bank := by
  simp only [Bank.decrement, decrement, flags_bank, bank_apply, storeResult_bank]

@[simp] theorem addWord_bank (source destination : Pair) :
    registers.bank.addWord destination (registers.getPair source) =
      (registers.addPair source destination).bank := by
  simp only [Bank.addWord, addPair, flags_bank, word_bank, storeWord_bank, storeFlags_bank]

/-- The flags of the sum are stored first with the old zero flag, and then with that of the sum. -/
@[simp] theorem addRegister_bank (source : Register) (destination : Pair) :
    registers.bank.addRegister source destination =
      (registers.addRegister source destination).bank := by
  have plain (x y : Word) : x + y = (Carried.add x y false).value := by simp [Carried.add]
  simp only [Bank.addRegister, Bank.addWord, addRegister, flags_bank, word_bank, bank_apply,
    storeWord_bank, storeFlags_bank, plain]
  rfl

@[simp] theorem incrementPair_bank (pair : Pair) :
    registers.bank.incrementPair pair = (registers.incrementPair pair).bank :=
  registers.storeWord_bank pair _

@[simp] theorem decrementPair_bank (pair : Pair) :
    registers.bank.decrementPair pair = (registers.decrementPair pair).bank :=
  registers.storeWord_bank pair _

@[simp] theorem setCarry_bank : registers.bank.setCarry = registers.setCarry.bank := by
  simp only [Bank.setCarry, setCarry, flags_bank, storeFlags_bank]

@[simp] theorem complementCarry_bank :
    registers.bank.complementCarry = registers.complementCarry.bank := by
  simp only [Bank.complementCarry, complementCarry, flags_bank, storeFlags_bank]

@[simp] theorem adjustDecimal_bank :
    registers.bank.adjustDecimal = registers.adjustDecimal.bank := by
  simp only [Bank.adjustDecimal, flags_bank, storeResult_bank]
  rfl

@[simp] theorem shift_bank (kind : Shift) (register : Register) :
    registers.bank.shift kind register = (registers.shift kind register).bank := by
  simp only [Bank.shift, shift, flags_bank, bank_apply, storeResult_bank]

/-- Clearing the flags after a shift leaves what a rotation of the accumulator leaves at once. -/
@[simp] theorem rotateA_bank (rotation : Rotation) :
    registers.bank.rotateA rotation = (registers.rotateA rotation).bank := by
  simp only [Bank.rotateA, shift_bank, flags_bank, storeFlags_bank]
  rfl

@[simp] theorem complement_bank (register : Register) :
    registers.bank.complement register = (registers.complement register).bank := by
  simp only [Bank.complement, complement, flags_bank, bank_apply, storeResult_bank]

@[simp] theorem checkBit_bank (register : Register) (position : Fin 8) :
    registers.bank.checkBit register position = (registers.checkBit register position).bank := by
  simp only [Bank.checkBit, checkBit, flags_bank, storeFlags_bank]
  rfl

@[simp] theorem setBit_bank (register : Register) (position : Fin 8) :
    registers.bank.setBit register position = (registers.setBit register position).bank :=
  registers.store_bank register _

@[simp] theorem clearBit_bank (register : Register) (position : Fin 8) :
    registers.bank.clearBit register position = (registers.clearBit register position).bank :=
  registers.store_bank register _

/-- An update leaves the same bytes in a bank. -/
@[simp] theorem apply_bank (update : Update) :
    registers.bank.apply update = (update.apply registers).bank := by
  cases update <;> simp [Bank.apply, Update.apply]

@[simp] theorem operand_bank (immediate : Word) (source : Source) :
    registers.bank.operand immediate source = source.operand immediate registers := by
  cases source <;> rfl

/-- An operation leaves the same bytes in a bank. -/
@[simp] theorem perform_bank (immediate : Word) (operation : Operation) :
    registers.bank.perform immediate operation =
      (operation.perform immediate registers).bank := by
  cases operation <;> simp [Bank.perform, Operation.perform]

end Registers

namespace Cpu

variable (cpu : Cpu)

/-- Carries out a command on a processor that is connected to a memory. -/
def obey (memory : Memory) (command : Command) : Cpu :=
  (({ cpu, memory } : Session).perform command).value.session.cpu

/-- Carries out commands one after another, each with a memory of its own. -/
def obeyAll (requests : List (Memory × Command)) : Cpu :=
  requests.foldl (fun cpu request => cpu.obey request.1 request.2) cpu

theorem ofSnapshot_banked (snapshot : Snapshot) :
    BankedCpu.ofSnapshot snapshot = (ofSnapshot snapshot).banked := by
  have blank : (fun _ => 0 : Bank) = ({} : Registers).bank := by
    funext register
    cases register <;> rfl
  simp only [BankedCpu.ofSnapshot, blank, Registers.store_bank]
  rfl

variable {cpu} {bus : Bus}

theorem step_banked_of_some {operation : Operation}
    (found : (bus.opcodeAt cpu.pc).decode = some operation) :
    cpu.banked.step bus =
      some (cpu.perform operation (bus.immediateAt cpu.pc operation)).banked := by
  simp only [BankedCpu.step, banked, found, Option.map_some, Registers.perform_bank, perform]

theorem step_banked_of_none (gap : (bus.opcodeAt cpu.pc).decode = none) :
    cpu.banked.step bus = none := by
  simp only [BankedCpu.step, banked, gap, Option.map_none]

end Cpu

/-- A run leaves the same bytes in a bank, whether or not it ends at a gap. -/
theorem Run.proceed_banked {bus : Bus} {run : Run} (going : run.fault = none) (limit : Nat) :
    run.cpu.banked.run bus limit = (run.proceed bus limit).cpu.banked := by
  induction limit generalizing run with
  | zero => rfl
  | succ limit ih =>
      rw [proceed_succ, BankedCpu.run]
      cases decoded : (bus.opcodeAt run.cpu.pc).decode with
      | none =>
          have last := advance_of_none going decoded
          rw [Cpu.step_banked_of_none decoded, last, proceed_of_isSome rfl]
      | some operation =>
          have first := advance_of_some going decoded
          rw [Cpu.step_banked_of_some decoded, ← ih (by rw [first]), first]

namespace Cpu

variable (cpu : Cpu)

/-- A change that may be refused is refused alike. -/
theorem tryBank_banked {α : Type} {change : α → Registers} {store : α → Bank}
    (same : ∀ x, store x = (change x).bank) (memory : Memory) (result : Except Fault α) :
    cpu.banked.tryBank (result.map store) =
      (Session.tryRegisters { cpu, memory } (result.map change)).session.cpu.banked := by
  cases result with
  | error fault => rfl
  | ok x => exact congrArg (BankedCpu.mk · cpu.pc) (same x)

theorem cpu_tryMemory (session : Session) (result : Except Fault Memory) :
    (session.tryMemory result).session.cpu = session.cpu := by
  cases result <;> rfl

theorem obey_step_banked (memory : Memory) :
    cpu.banked.obey memory .step = (cpu.obey memory .step).banked := by
  rw [BankedCpu.obey, obey, Session.perform, Session.step]
  cases decoded : (Bus.opcodeAt memory.read cpu.pc).decode with
  | none => rw [step_banked_of_none decoded, value_step_of_none decoded, Option.getD_none]
  | some operation =>
      rw [step_banked_of_some decoded, value_step_of_some decoded, Option.getD_some]

/-- Whatever is asked of a processor, it leaves the same bytes in a bank. -/
theorem obey_banked (memory : Memory) (command : Command) :
    cpu.banked.obey memory command = (cpu.obey memory command).banked := by
  cases command with
  | update update => exact congrArg (BankedCpu.mk · cpu.pc) (cpu.registers.apply_bank update)
  | setNamed name value =>
      exact cpu.tryBank_banked (fun register => cpu.registers.store_bank register _) memory _
  | checkBit register position =>
      exact cpu.tryBank_banked (cpu.registers.checkBit_bank register) memory _
  | setBit register position =>
      exact cpu.tryBank_banked (cpu.registers.setBit_bank register) memory _
  | clearBit register position =>
      exact cpu.tryBank_banked (cpu.registers.clearBit_bank register) memory _
  | setPc address => rfl
  | reset snapshot => exact ofSnapshot_banked snapshot
  | step => exact cpu.obey_step_banked memory
  | run limit =>
      have going : ({ cpu } : Run).fault = none := rfl
      exact Run.proceed_banked going limit
  | load origin block => exact congrArg banked (cpu_tryMemory { cpu, memory } _).symm
  | writeByte address byte => exact congrArg banked (cpu_tryMemory { cpu, memory } _).symm
  | ask _ | save | restore | writeAt _ _ => rfl

/-- A processor and its bank go together through any list of requests. -/
theorem obeyAll_banked (requests : List (Memory × Command)) :
    cpu.banked.obeyAll requests = (cpu.obeyAll requests).banked := by
  induction requests generalizing cpu with
  | nil => rfl
  | cons request rest ih =>
      rw [BankedCpu.obeyAll, List.foldl_cons, obey_banked]
      exact ih _

/-- Whatever is done to a processor, its flag byte has a clear lower half and is the byte of the
flags as they read. It is the byte that a bank holds after the same requests. -/
theorem flag_byte_legal (snapshot : Snapshot) (requests : List (Memory × Command)) :
    let cpu := (ofSnapshot snapshot).obeyAll requests
    let f := cpu.registers.get .f
    let flags := cpu.registers.flags
    f.toNat % 16 = 0 ∧
      f.toNat =
        0x80 * flags.zero.toNat + 0x40 * flags.subtract.toNat + 0x20 * flags.halfCarry.toNat
          + 0x10 * flags.carry.toNat ∧
      flags = .ofByte f ∧ (cpu.registers.getPair .af).toNat % 16 = 0 ∧
      (BankedCpu.ofSnapshot snapshot).obeyAll requests = cpu.banked := by
  intro cpu f flags
  have follows : (BankedCpu.ofSnapshot snapshot).obeyAll requests = cpu.banked := by
    rw [ofSnapshot_banked, obeyAll_banked]
  have encoded : f.toNat = _ := flags.toNat_toByte
  have decoded : flags = .ofByte f := cpu.registers.ofByte_get_f.symm
  have pair : (cpu.registers.getPair .af).toNat = 256 * cpu.registers.a.toNat + f.toNat :=
    toNat_joinBytes _ _
  refine ⟨?_, encoded, decoded, ?_, follows⟩ <;> omega

end Cpu

end Sm83
