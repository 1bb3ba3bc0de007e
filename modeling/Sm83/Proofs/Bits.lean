import Sm83.Proofs.Arithmetic.Bytes
import Sm83.Proofs.Requests

/-!
# Bits hold what was written last

Bits of registers are set and cleared one after another. Main statement: every bit holds what the
last request for it brought, or what it held before; a position beyond the byte is refused and
changes nothing, and the flag register has no lower four bits to be set.
-/

namespace Sm83

/-- A request for one bit of a register: to be set, or to be cleared. -/
structure BitWrite where
  register : Register
  position : Byte
  value : Bool

/-- The bit that a command is about to set or clear. -/
def Command.bit? : Command → Option BitWrite
  | .setBit register position => some ⟨register, position, true⟩
  | .clearBit register position => some ⟨register, position, false⟩
  | _ => none

/-- The value that a bit received: the one that the command brought, unless it was refused. -/
def Exchange.bit? (exchange : Exchange) (register : Register) (position : Nat) : Option Bool :=
  match exchange.command.bit?, exchange.answer with
  | some write, .ok _ =>
      if write.register = register ∧ write.position.toNat = position then some write.value else none
  | _, _ => none

/-! ## Bits of bytes -/

theorem getLsbD_bitMask (place : Fin 8) (position : Nat) :
    (bitMask place).getLsbD position = decide (place.val = position) := by
  have power : bitMask place = BitVec.twoPow 8 place := by
    revert place
    decide
  rw [power, BitVec.getLsbD_twoPow, decide_eq_true place.isLt, Bool.true_and]

/-- The byte with one bit replaced. -/
def replaceBit (byte : Byte) (place : Fin 8) (value : Bool) : Byte :=
  if value then byte ||| bitMask place else byte &&& ~~~(bitMask place)

theorem getLsbD_replaceBit (byte : Byte) (place : Fin 8) (value : Bool) (position : Nat) :
    (replaceBit byte place value).getLsbD position =
      if place.val = position then value else byte.getLsbD position := by
  by_cases here : place.val = position
  · subst here
    cases value <;> simp [replaceBit, getLsbD_bitMask]
  · rw [if_neg here]
    cases value with
    | true => simp [replaceBit, getLsbD_bitMask, here]
    | false =>
        have inside : byte.getLsbD position = true → position < 8 := BitVec.lt_of_getLsbD
        simpa [replaceBit, getLsbD_bitMask, here] using inside

/-- The flag register keeps the upper four bits of a byte, every other register all eight. -/
theorem Register.getLsbD_keep (register : Register) (byte : Byte) (position : Nat) :
    (register.keep byte).getLsbD position =
      if register = .f ∧ position < 4 then false else byte.getLsbD position := by
  by_cases data : register = .f
  · subst data
    by_cases inside : position < 8
    · have upper : ∀ position < 8, (0xF0 : Byte).getLsbD position = decide (4 ≤ position) := by
        decide
      rw [keep, BitVec.getLsbD_and, upper position inside]
      by_cases low : position < 4
      · rw [if_pos ⟨rfl, low⟩, decide_eq_false (by omega), Bool.and_false]
      · rw [if_neg fun absent => low absent.2, decide_eq_true (by omega), Bool.and_true]
    · rw [if_neg fun absent => inside (by omega), BitVec.getLsbD_of_ge _ _ (by omega),
        BitVec.getLsbD_of_ge _ _ (by omega)]
  · rw [if_neg fun absent => data absent.1, keep_of_ne_f data]

namespace Registers

variable (registers : Registers) {register : Register} {position : Nat}

/-- The flag register has no lower four bits. -/
theorem getLsbD_get_of_absent (absent : register = .f ∧ position < 4) :
    (registers.get register).getLsbD position = false := by
  rw [← registers.keep_get, Register.getLsbD_keep, if_pos absent]

/-- Replaces a bit of a register. -/
def putBit (register : Register) (place : Fin 8) (value : Bool) : Registers :=
  registers.set register (replaceBit (registers.get register) place value)

/-- Writing a bit changes that bit and no other. -/
theorem getLsbD_get_putBit (present : ¬(register = .f ∧ position < 4)) (target : Register)
    (place : Fin 8) (value : Bool) :
    ((registers.putBit target place value).get register).getLsbD position =
      if target = register ∧ place.val = position then value
      else (registers.get register).getLsbD position := by
  by_cases same : register = target
  · subst same
    rw [putBit, get_set_self, Register.getLsbD_keep, if_neg present, getLsbD_replaceBit]
    simp only [true_and]
  · rw [putBit, get_set_of_ne _ same, if_neg fun written => same written.1.symm]

end Registers

/-! ## One request -/

namespace Session

variable (session : Session) {command : Command} {write : BitWrite}

/-- A request for a bit replaces it, if a byte has such a bit. -/
theorem perform_bit (asks : command.bit? = some write) :
    (session.perform command).value =
      session.tryRegisters ((bitPosition write.position).map fun place =>
        session.cpu.registers.putBit write.register place write.value) := by
  cases command with
  | setBit _ _ | clearBit _ _ =>
      cases asks
      rfl
  | _ => cases asks

theorem perform_bit_of_lt (asks : command.bit? = some write) (inside : write.position.toNat < 8) :
    (session.perform command).value =
      (session.setRegisters
        (session.cpu.registers.putBit write.register ⟨_, inside⟩ write.value)).done := by
  rw [session.perform_bit asks, bitPosition_of_lt inside]
  rfl

theorem perform_bit_of_le (asks : command.bit? = some write) (beyond : 8 ≤ write.position.toNat) :
    (session.perform command).value = ⟨session, .error (.badBitPosition write.position)⟩ := by
  rw [session.perform_bit asks, bitPosition_of_le beyond]
  rfl

variable {register : Register} {position : Nat}

/-- After a request for a bit every bit holds the value that it received, or else what it held
before. -/
theorem getLsbD_perform (asks : command.bit?.isSome) (present : ¬(register = .f ∧ position < 4)) :
    let response := (session.perform command).value
    (response.session.cpu.registers.get register).getLsbD position =
      ((Exchange.mk command response.answer).bit? register position).getD
        ((session.cpu.registers.get register).getLsbD position) := by
  obtain ⟨write, asks⟩ := Option.isSome_iff_exists.mp asks
  by_cases inside : write.position.toNat < 8
  · simp only [session.perform_bit_of_lt asks inside, Exchange.bit?, asks, done, setRegisters]
    rw [Registers.getLsbD_get_putBit _ present]
    split <;> rfl
  · simp only [session.perform_bit_of_le asks (Nat.le_of_not_lt inside), Exchange.bit?, asks,
      Option.getD_none]

theorem pc_perform_bit (asks : command.bit?.isSome) :
    (session.perform command).value.session.cpu.pc = session.cpu.pc := by
  obtain ⟨write, asks⟩ := Option.isSome_iff_exists.mp asks
  by_cases inside : write.position.toNat < 8
  · rw [session.perform_bit_of_lt asks inside]
    rfl
  · rw [session.perform_bit_of_le asks (Nat.le_of_not_lt inside)]

/-- Checking a bit leaves its complement as the zero flag, and all other registers alone. -/
theorem checkBit_settles (register : Register) {position : Byte} (inside : position.toNat < 8) :
    let bit := (session.cpu.registers.get register).getLsbD position.toNat
    Settles session (session.perform (.checkBit register position)).value []
      { zero := !bit, halfCarry := true, carry := session.cpu.registers.flags.carry } := by
  intro bit
  have done : (session.perform (.checkBit register position)).value =
      (session.setRegisters
        (session.cpu.registers.checkBit register ⟨position.toNat, inside⟩)).done := by
    rw [perform, bitPosition_of_lt inside]
    rfl
  rw [done]
  constructor
  case accepted => rfl
  case flags => rfl
  case others =>
    intro other _ data
    exact Registers.get_withFlags_of_ne_f _ data _
  case pc => rfl

/-! ## Lists of requests -/

variable {commands : List Command}

theorem getLsbD_performAll (asks : ∀ command ∈ commands, command.bit?.isSome)
    (present : ¬(register = .f ∧ position < 4)) :
    ((session.performAll commands).cpu.registers.get register).getLsbD position =
      (latest? (·.bit? register position) (session.exchanges commands)).getD
        ((session.cpu.registers.get register).getLsbD position) := by
  refine view_performAll (fun session => (session.cpu.registers.get register).getLsbD position)
    (·.bit? register position) ?_ session
  intro session command isMember
  exact session.getLsbD_perform (asks command isMember) present

/-- Flags of which no bit was given are the flags that were there. -/
theorem get_f_performAll (asks : ∀ command ∈ commands, command.bit?.isSome)
    (untouched : ∀ position, latest? (·.bit? .f position) (session.exchanges commands) = none) :
    (session.performAll commands).cpu.registers.get .f = session.cpu.registers.get .f := by
  apply BitVec.eq_of_getLsbD_eq
  intro position _
  by_cases absent : Register.f = .f ∧ position < 4
  · rw [Registers.getLsbD_get_of_absent _ absent, Registers.getLsbD_get_of_absent _ absent]
  · rw [session.getLsbD_performAll asks absent, untouched, Option.getD_none]

/-- Whatever bits are set and cleared, refused or not, every bit holds what was written there last,
or what it held at the start; the lower four bits of the flag register are never there. Testing a
bit tells it, and checking it leaves its complement as the zero flag; beyond the byte both are
refused like the writing itself. -/
theorem bits_hold_last_given (asks : ∀ command ∈ commands, command.bit?.isSome) :
    let after := session.performAll commands
    let given := fun register position =>
      latest? (·.bit? register position) (session.exchanges commands)
    (∀ command write, command.bit? = some write →
        let response := (after.perform command).value
        (write.position.toNat < 8 → response.answer = .ok .nothing) ∧
          (8 ≤ write.position.toNat →
            response = ⟨after, .error (.badBitPosition write.position)⟩)) ∧
      (∀ (register : Register) (position : Byte),
        let bit :=
          if register = .f ∧ position.toNat < 4 then false
          else (given register position.toNat).getD
            ((session.cpu.registers.get register).getLsbD position.toNat)
        let tested := (after.perform (.ask (.testBit register position))).value
        let checked := (after.perform (.checkBit register position)).value
        (position.toNat < 8 →
            tested = ⟨after, .ok (.truth bit)⟩ ∧
              Settles after checked []
                { zero := !bit, halfCarry := true, carry := after.cpu.registers.flags.carry }) ∧
          (8 ≤ position.toNat →
            tested = ⟨after, .error (.badBitPosition position)⟩ ∧
              checked = ⟨after, .error (.badBitPosition position)⟩)) ∧
      after.cpu.pc = session.cpu.pc ∧
      ((∀ position, given .f position = none) →
        after.cpu.registers.get .f = session.cpu.registers.get .f) := by
  intro after given
  refine ⟨?writing, ?reading, ?pc, session.get_f_performAll asks⟩
  case writing =>
    intro command write named response
    constructor
    · intro inside
      exact congrArg Response.answer (after.perform_bit_of_lt named inside)
    · exact after.perform_bit_of_le named
  case reading =>
    intro register position bit tested checked
    have held : (after.cpu.registers.get register).getLsbD position.toNat = bit := by
      by_cases absent : register = .f ∧ position.toNat < 4
      · exact (Registers.getLsbD_get_of_absent _ absent).trans (if_pos absent).symm
      · exact (session.getLsbD_performAll asks absent).trans (if_neg absent).symm
    constructor
    · intro inside
      constructor
      · change ⟨after, after.answer _⟩ = (_ : Response)
        rw [answer, bitPosition_of_lt inside, ← held]
        rfl
      · rw [← held]
        exact after.checkBit_settles register inside
    · intro beyond
      constructor
      · change ⟨after, after.answer _⟩ = (_ : Response)
        rw [answer, bitPosition_of_le beyond]
        rfl
      · change after.tryRegisters _ = _
        rw [bitPosition_of_le beyond]
        rfl
  case pc =>
    refine view_performAll_of_kept (fun session => session.cpu.pc) ?_ session
    intro session command isMember
    exact session.pc_perform_bit (asks command isMember)

/-- Bit 7 of B is written three times and bit 2 once; B has no bit 8, and F no bit 1. -/
theorem bits_hold_last_given_around_flags :
    let session : Session := { cpu := { registers := { b := 0x81 } } }
    let commands : List Command :=
      [.clearBit .b 7, .setBit .b 2, .setBit .b 8, .setBit .f 1, .setBit .b 7, .setBit .f 7,
        .clearBit .b 7]
    let after := session.performAll commands
    let test := fun register position =>
      (after.perform (.ask (.testBit register position))).value.answer
    (∀ command ∈ commands, command.bit?.isSome) ∧
      test .b 7 = .ok (.truth false) ∧ test .b 2 = .ok (.truth true) ∧
      test .b 0 = .ok (.truth true) ∧ test .f 1 = .ok (.truth false) ∧
      test .f 7 = .ok (.truth true) ∧ test .b 8 = .error (.badBitPosition 8) := by
  intro session commands after test
  have asks : ∀ command ∈ commands, command.bit?.isSome := by decide
  obtain ⟨-, reads, -⟩ := bits_hold_last_given session asks
  have tells (register : Register) (position : Byte) (inside : position.toNat < 8) {bit : Bool}
      (holds : (if register = .f ∧ position.toNat < 4 then false
        else (latest? (·.bit? register position.toNat) (session.exchanges commands)).getD
          ((session.cpu.registers.get register).getLsbD position.toNat)) = bit) :
      test register position = .ok (.truth bit) := by
    rw [← holds]
    exact congrArg Response.answer ((reads register position).1 inside).1
  refine ⟨asks, tells _ _ ?_ ?_, tells _ _ ?_ ?_, tells _ _ ?_ ?_, tells _ _ ?_ ?_,
    tells _ _ ?_ ?_, congrArg Response.answer ((reads .b 8).2 ?_).1⟩ <;> decide

end Session

end Sm83
