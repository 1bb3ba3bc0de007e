import Sm83.Proofs.Names
import Sm83.Proofs.Requests

/-!
# Registers hold what was assigned last

Bytes and numbers are written to single registers and words to pairs, in any order. Main statement:
every register holds the number that was assigned to it last, whichever way it came, and a pair
always reads as its two halves.
-/

namespace Sm83

/-- The number that a register keeps of one: the flag register the multiple of sixteen below. -/
def Register.keepNumber (register : Register) (number : Int) : Int :=
  if register = .f then 16 * (number / 16) else number

theorem Register.toNat_keep (register : Register) (byte : Byte) :
    ((register.keep byte).toNat : Int) = register.keepNumber byte.toNat := by
  by_cases data : register = .f
  · subst data
    rw [toNat_keep_f, keepNumber, if_pos rfl]
    rfl
  · rw [keep_of_ne_f data, keepNumber, if_neg data]

/-- A write to the registers: of a byte or a number to one of them, or of a word to a pair. -/
inductive Write where
  | set (register : Register) (byte : Byte)
  | setInt (register : Register) (number : Int)
  | setPair (pair : Pair) (word : Word)
  deriving Repr

namespace Write

/-- The registers after a write. -/
def apply (registers : Registers) : Write → Registers
  | .set register byte => registers.set register byte
  | .setInt register number => registers.setInt register number
  | .setPair pair word => registers.setPair pair word

/-- The number that a write assigns to a register, if it assigns one. Numbers count modulo 256, and
a word is divided between the halves of its pair. -/
def assigned? (write : Write) (register : Register) : Option Int :=
  match write with
  | .set target byte => if target = register then some byte.toNat else none
  | .setInt target number => if target = register then some (number % 256) else none
  | .setPair pair word =>
      if pair.high = register then some (word.toNat / 256)
      else if pair.low = register then some (word.toNat % 256)
      else none

end Write

namespace Registers

variable (registers : Registers) (register : Register)

theorem toNat_get_set (target : Register) (byte : Byte) :
    (((registers.set target byte).get register).toNat : Int) =
      if target = register then register.keepNumber byte.toNat
      else (registers.get register).toNat := by
  by_cases same : target = register
  · subst same
    rw [get_set_self, Register.toNat_keep, if_pos rfl]
  · rw [get_set_of_ne registers (Ne.symm same), if_neg same]

theorem toNat_get_setInt (target : Register) (number : Int) :
    (((registers.setInt target number).get register).toNat : Int) =
      if target = register then register.keepNumber (number % 256)
      else (registers.get register).toNat := by
  have byte : ((BitVec.ofInt 8 number).toNat : Int) = number % 256 := by
    rw [BitVec.toNat_ofInt]
    omega
  rw [setInt, toNat_get_set, byte]

theorem toNat_get_setPair (pair : Pair) (word : Word) :
    (((registers.setPair pair word).get register).toNat : Int) =
      if pair.high = register then register.keepNumber (word.toNat / 256)
      else if pair.low = register then register.keepNumber (word.toNat % 256)
      else (registers.get register).toNat := by
  rw [setPair, toNat_get_set, toNat_get_set, toNat_highByte, toNat_lowByte]
  by_cases high : pair.high = register
  · have low : pair.low ≠ register := fun low => pair.high_ne_low pair (high.trans low.symm)
    rw [if_neg low, if_pos high, if_pos high]
    rfl
  · rw [if_neg high, if_neg high]
    rfl

/-- A write leaves in a register what it assigns there, or else what the register held. -/
theorem toNat_get_apply (write : Write) :
    (((write.apply registers).get register).toNat : Int) =
      ((write.assigned? register).map register.keepNumber).getD (registers.get register).toNat := by
  cases write with
  | set target byte =>
      rw [Write.apply, toNat_get_set, Write.assigned?]
      split <;> rfl
  | setInt target number =>
      rw [Write.apply, toNat_get_setInt, Write.assigned?]
      split <;> rfl
  | setPair pair word =>
      rw [Write.apply, toNat_get_setPair, Write.assigned?]
      by_cases high : pair.high = register
      · rw [if_pos high, if_pos high]
        rfl
      · rw [if_neg high, if_neg high]
        split <;> rfl

/-- The registers after writes, one after another. -/
def writeAll (writes : List Write) : Registers := writes.foldl Write.apply registers

theorem toNat_get_writeAll (writes : List Write) :
    (((registers.writeAll writes).get register).toNat : Int) =
      ((latest? (·.assigned? register) writes).map register.keepNumber).getD
        (registers.get register).toNat := by
  induction writes generalizing registers with
  | nil => rfl
  | cons write rest ih =>
      have later := ih (write.apply registers)
      rw [toNat_get_apply] at later
      rw [latest?_cons, Option.map_or, Option.getD_or]
      exact later

theorem toNat_getPair (pair : Pair) :
    (registers.getPair pair).toNat =
      256 * (registers.get pair.high).toNat + (registers.get pair.low).toNat :=
  toNat_joinBytes _ _

/-- Two registers read as the pair of which they are the halves, the high one first. -/
theorem join_decides (high low : Register) :
    Decides (registers.join high low)
      (fun word => ∃ pair : Pair, (pair.high = high ∧ pair.low = low) ∧
        registers.getPair pair = word)
      (.unknownPair (high.name ++ low.name)) :=
  (Pair.ofHalves_decides high low).map registers.getPair

/-- Whatever was written to registers and pairs, a register holds what was assigned to it last, and
zero if nothing was; the flag register does so without its lower four bits. Every pair reads as its
two halves. Two registers read as a pair if they are its halves in order, and are refused by their
names otherwise. -/
theorem hold_last_assigned (writes : List Write) :
    let registers := writeAll {} writes
    let last := fun register => (latest? (Write.assigned? · register) writes).getD 0
    (∀ register : Register, register ≠ .f →
        ((registers.get register).toNat : Int) = last register) ∧
      ((registers.get .f).toNat : Int) = 16 * (last .f / 16) ∧
      (∀ pair : Pair, (registers.getPair pair).toNat =
        256 * (registers.get pair.high).toNat + (registers.get pair.low).toNat) ∧
      ∀ x y : Register,
        Decides (registers.join x y)
          (fun word => ∃ pair : Pair, (pair.high = x ∧ pair.low = y) ∧
            registers.getPair pair = word)
          (.unknownPair (x.name ++ y.name)) := by
  intro registers last
  have held (register : Register) :
      ((registers.get register).toNat : Int) = register.keepNumber (last register) := by
    have blank : ((({} : Registers).get register).toNat : Int) = register.keepNumber 0 := by
      cases register <;> rfl
    rw [toNat_get_writeAll, blank]
    exact Option.getD_map _ 0 _
  refine ⟨?data, held .f, registers.toNat_getPair, registers.join_decides⟩
  case data =>
    intro register data
    rw [held, Register.keepNumber, if_neg data]

example :
    let registers := writeAll {} [.setPair .af 0x123F, .setInt .l (-2), .set .h 0xC0]
    registers.getPair .af = 0x1230 ∧ registers.getPair .hl = 0xC0FE := by
  decide

end Registers

end Sm83
