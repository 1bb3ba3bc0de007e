import Sm83.Monitor.Session
import Sm83.Proofs.Assignments

/-!
# Registers reached by name

Registers are set and read, and pairs are read, by names that the user spells. Main statement: an
accepted name reaches its register or pair however it is spelled, and with any other name nothing
happens but the complaint about it.
-/

namespace Sm83

/-- The session accepts a request after which a register holds a number. Nothing else changes. -/
structure Assigns (before : Session) (after : Response) (register : Register) (number : Int) :
    Prop where
  accepted : after.answer = .ok .nothing
  stored : ((after.session.cpu.registers.get register).toNat : Int) = number
  others : ∀ other ≠ register,
    after.session.cpu.registers.get other = before.cpu.registers.get other
  rest : after.session = before.setRegisters after.session.cpu.registers

/-! ## Spellings that differ in case -/

theorem Register.spelling_iff_of_toLower_eq {name other : String}
    (same : other.toLower = name.toLower) (register : Register) :
    register.Spelling other ↔ register.Spelling name := by
  rw [spelling_iff, spelling_iff, same]

theorem Pair.spelling_iff_of_toLower_eq {name other : String}
    (same : other.toLower = name.toLower) (pair : Pair) :
    pair.Spelling other ↔ pair.Spelling name := by
  rw [Spelling, Spelling, same]

namespace Session

variable (session : Session) {name : String}

/-! ## Setting a register by its name -/

theorem perform_setNamed_of_spelling {register : Register} (spelled : register.Spelling name)
    (value : Int) :
    (session.perform (.setNamed name value)).value =
      (session.setRegisters (session.cpu.registers.setInt register value)).done := by
  rw [perform, (Register.parse_decides name).eq_ok spelled]
  rfl

theorem perform_setNamed_of_unknown (unknown : ∀ register : Register, ¬register.Spelling name)
    (value : Int) :
    (session.perform (.setNamed name value)).value =
      ⟨session, .error (.unknownRegister name)⟩ := by
  rw [perform, (Register.parse_decides name).eq_error unknown]
  rfl

theorem setNamed_assigns {register : Register} (spelled : register.Spelling name) (value : Int) :
    Assigns session (session.perform (.setNamed name value)).value register
      (register.keepNumber (value % 256)) := by
  rw [session.perform_setNamed_of_spelling spelled]
  constructor
  case accepted => rfl
  case stored =>
    exact (session.cpu.registers.toNat_get_setInt register register value).trans (if_pos rfl)
  case others => exact fun other different => session.cpu.registers.get_set_of_ne different _
  case rest => rfl

/-! ## Reading by name -/

/-- A register is read by the spellings of its name. -/
theorem answer_registerNamed_decides (name : String) :
    Decides (session.answer (.registerNamed name))
      (fun reply => ∃ register : Register, register.Spelling name ∧
        .byte (session.cpu.registers.get register) = reply)
      (.unknownRegister name) :=
  (Register.parse_decides name).map fun register => Reply.byte (session.cpu.registers.get register)

/-- A pair is read by the spellings of its name. -/
theorem answer_pairNamed_decides (name : String) :
    Decides (session.answer (.pairNamed name))
      (fun reply => ∃ pair : Pair, pair.Spelling name ∧
        .word (session.cpu.registers.getPair pair) = reply)
      (.unknownPair name) :=
  (Pair.parse_decides name).map fun pair => Reply.word (session.cpu.registers.getPair pair)

/-- A name is accepted if and only if it spells a register, or a pair, and letters of the other case
spell the same one. Setting a register by an accepted name changes this register only, and every
spelling of the name then reads the byte. A pair reads as its two halves. A name that is not
accepted is reported as it was given, and changes nothing. -/
theorem names_reach_registers (name : String) (value : Int) :
    let written := (session.perform (.setNamed name value)).value
    let read := fun (session : Session) (name : String) =>
      (session.perform (.ask (.registerNamed name))).value
    let readPair := (session.perform (.ask (.pairNamed name))).value
    let byte := fun register => (session.cpu.registers.get register).toNat
    Decides (Register.parse name) (Register.Spelling · name) (.unknownRegister name) ∧
      Decides (Pair.parse name) (Pair.Spelling · name) (.unknownPair name) ∧
      (∀ other : String, other.toLower = name.toLower →
        (∀ register, Register.parse other = .ok register ↔ Register.parse name = .ok register) ∧
          ∀ pair, Pair.parse other = .ok pair ↔ Pair.parse name = .ok pair) ∧
      (∀ register : Register, register.Spelling name →
        Assigns session written register (register.keepNumber (value % 256)) ∧
          ∀ spelling, register.Spelling spelling →
            read written.session spelling =
              ⟨written.session, .ok (.byte (written.session.cpu.registers.get register))⟩) ∧
      ((∀ register : Register, ¬register.Spelling name) →
        written = ⟨session, .error (.unknownRegister name)⟩ ∧
          read session name = ⟨session, .error (.unknownRegister name)⟩) ∧
      (∀ pair : Pair, pair.Spelling name →
        ∃ word : Word, readPair = ⟨session, .ok (.word word)⟩ ∧
          word.toNat = 256 * byte pair.high + byte pair.low) ∧
      ((∀ pair : Pair, ¬pair.Spelling name) →
        readPair = ⟨session, .error (.unknownPair name)⟩) := by
  intro written read readPair byte
  refine ⟨Register.parse_decides name, Pair.parse_decides name, ?cases, ?accepted, ?unknown, ?pair,
    ?unknownPair⟩
  case cases =>
    intro other same
    constructor
    · intro register
      rw [(Register.parse_decides other).granted, (Register.parse_decides name).granted,
        Register.spelling_iff_of_toLower_eq same]
    · intro pair
      rw [(Pair.parse_decides other).granted, (Pair.parse_decides name).granted,
        Pair.spelling_iff_of_toLower_eq same]
  case accepted =>
    intro register spelled
    refine ⟨session.setNamed_assigns spelled value, fun spelling also => ?_⟩
    have answered := written.session.answer_registerNamed_decides spelling
    exact congrArg (Response.mk written.session) (answered.eq_ok ⟨register, also, rfl⟩)
  case unknown =>
    intro unknown
    have answered := session.answer_registerNamed_decides name
    exact ⟨session.perform_setNamed_of_unknown unknown value,
      congrArg (Response.mk session)
        (answered.eq_error fun _ ⟨register, spelled, _⟩ => unknown register spelled)⟩
  case pair =>
    intro pair spelled
    have answered := session.answer_pairNamed_decides name
    exact ⟨session.cpu.registers.getPair pair,
      congrArg (Response.mk session) (answered.eq_ok ⟨pair, spelled, rfl⟩),
      session.cpu.registers.toNat_getPair pair⟩
  case unknownPair =>
    intro unknown
    have answered := session.answer_pairNamed_decides name
    exact congrArg (Response.mk session)
      (answered.eq_error fun _ ⟨pair, spelled, _⟩ => unknown pair spelled)

example :
    let written := (({} : Session).perform (.setNamed "F" (-2))).value
    written.session.cpu.registers.get .f = 0xF0 := by
  decide

end Session

end Sm83
