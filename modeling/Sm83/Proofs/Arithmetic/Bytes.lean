import Sm83.Monitor.Session
import Sm83.Proofs.Carried

/-!
# Byte arithmetic as numbers

What the operations on bytes compute, told without bits. A sum or difference is stored modulo
256; the carry compares whole numbers, the half carry their remainders modulo 16. Main
statement: every operation settles its number and its flags and leaves all else alone, whichever
registers it works on.
-/

namespace Sm83

/-! ## Flags of numbers -/

/-- The flags of a sum of two numbers and a carry, for numbers below `whole` that carry halfway
at `half`. -/
def sumFlags (half whole a b c : Nat) : Flags where
  zero := decide ((a + b + c) % whole = 0)
  subtract := false
  halfCarry := decide (half ≤ a % half + b % half + c)
  carry := decide (whole ≤ a + b + c)

/-- The flags of a difference of two numbers, less a borrow. -/
def differenceFlags (half whole a b c : Nat) : Flags where
  zero := decide ((a - b - c : Int) % whole = 0)
  subtract := true
  halfCarry := decide (a % half < b % half + c)
  carry := decide (a < b + c)

theorem beq_zero_eq_decide {width : Nat} (number : BitVec width) :
    (number == 0) = decide (number.toNat = 0) := by
  rw [beq_eq_decide, decide_eq_decide, ← BitVec.toNat_inj, BitVec.ofNat_eq_ofNat,
    BitVec.toNat_zero]

namespace Carried

variable {width : Nat} (x y : BitVec width) (carryIn : Bool)

theorem flags_add :
    (add x y carryIn).flags false =
      sumFlags (2 ^ (width - 4)) (2 ^ width) x.toNat y.toNat carryIn.toNat := by
  rw [flags, sumFlags, beq_zero_eq_decide, toNat_add, carry_add, halfCarry_add]

theorem flags_sub :
    (sub x y carryIn).flags true =
      differenceFlags (2 ^ (width - 4)) (2 ^ width) x.toNat y.toNat carryIn.toNat := by
  rw [flags, differenceFlags, beq_zero_eq_decide, carry_sub, halfCarry_sub, ← toNat_sub]
  simp only [Int.natCast_eq_zero]

end Carried

/-! ## What a request settles -/

/-- The session accepts a request, after which the flag register holds the flags. Every other
register holds what it held, the listed ones apart. -/
structure Settles (before : Session) (after : Response) (written : List Register)
    (flags : Flags) : Prop where
  accepted : after.answer = .ok .nothing
  flags : after.session.cpu.registers.get .f = flags.toByte
  others : ∀ other ∉ written, other ≠ .f →
    after.session.cpu.registers.get other = before.cpu.registers.get other
  pc : after.session.cpu.pc = before.cpu.pc

/-- A register comes to hold a number. The flags are written last: a number meant for their
register is lost. -/
structure SettlesByte (before : Session) (after : Response) (register : Register) (number : Int)
    (flags : Flags) : Prop extends Settles before after [register] flags where
  stored : register ≠ .f → ((after.session.cpu.registers.get register).toNat : Int) = number

namespace Registers

/-- A comparison stores what was there. -/
theorem combine_cp (registers : Registers) (destination : Register) (operand : Byte) :
    registers.combine .cp destination operand =
      registers.setWithFlags destination (registers.get destination)
        (ByteOp.difference (registers.get destination) operand false).flags := by
  cases destination <;> rfl

end Registers

theorem Settles.of_withFlags {session : Session} {update : Update} {stored : Registers}
    {written : List Register} {left flags : Flags}
    (applied : update.apply session.cpu.registers = { stored with flags := left })
    (same : left = flags)
    (kept : ∀ other ∉ written, stored.get other = session.cpu.registers.get other) :
    Settles session (session.perform (.update update)).value written flags where
  accepted := rfl
  flags := (congrArg (Registers.get · .f) applied).trans (congrArg Flags.toByte same)
  others other free data := by
    calc (update.apply session.cpu.registers).get other
        = ({ stored with flags := left } : Registers).get other := by rw [applied]
      _ = stored.get other := stored.get_withFlags_of_ne_f data left
      _ = session.cpu.registers.get other := kept other free
  pc := rfl

theorem SettlesByte.of_setWithFlags {session : Session} {update : Update} {register : Register}
    {byte : Byte} {left flags : Flags} {number : Int}
    (applied : update.apply session.cpu.registers =
      session.cpu.registers.setWithFlags register byte left)
    (value : (byte.toNat : Int) = number) (same : left = flags) :
    SettlesByte session (session.perform (.update update)).value register number flags where
  toSettles := .of_withFlags applied same fun _ free =>
    Registers.get_set_of_ne _ (List.ne_of_not_mem_cons free) byte
  stored data := by
    have found : (update.apply session.cpu.registers).get register = byte := by
      rw [applied, Registers.get_setWithFlags, if_neg data, if_pos rfl]
    exact (congrArg (fun byte : Byte => (byte.toNat : Int)) found).trans value

/-! ## Operations on bytes -/

/-- The operations on bytes compute what they should, in whichever registers they are given and
also if these are one register or the flags. -/
theorem byte_operations_settle (session : Session) (target destination : Register) :
    let perform (update : Update) := (session.perform (.update update)).value
    let x := session.cpu.registers.get destination
    let y := session.cpu.registers.get target
    let carry := session.cpu.registers.flags.carry
    let a := x.toNat
    let b := y.toNat
    let c := carry.toNat
    SettlesByte session (perform (.combine .add target destination)) destination
        ((a + b) % 256) (sumFlags 16 256 a b 0) ∧
      SettlesByte session (perform (.combine .adc target destination)) destination
        ((a + b + c) % 256) (sumFlags 16 256 a b c) ∧
      SettlesByte session (perform (.combine .sub target destination)) destination
        ((a - b) % 256) (differenceFlags 16 256 a b 0) ∧
      SettlesByte session (perform (.combine .sbc target destination)) destination
        ((a - b - c) % 256) (differenceFlags 16 256 a b c) ∧
      SettlesByte session (perform (.combine .and target destination)) destination
        (a &&& b : Nat) ⟨decide (a &&& b = 0), false, true, false⟩ ∧
      SettlesByte session (perform (.combine .or target destination)) destination
        (a ||| b : Nat) ⟨decide (a ||| b = 0), false, false, false⟩ ∧
      SettlesByte session (perform (.combine .xor target destination)) destination
        (a ^^^ b : Nat) ⟨decide (a ^^^ b = 0), false, false, false⟩ ∧
      SettlesByte session (perform (.combine .cp target destination)) destination
        a (differenceFlags 16 256 a b 0) ∧
      SettlesByte session (perform (.increment destination)) destination
        ((a + 1) % 256) { sumFlags 16 256 a 1 0 with carry } ∧
      SettlesByte session (perform (.decrement destination)) destination
        ((a - 1) % 256) { differenceFlags 16 256 a 1 0 with carry } := by
  intro perform x y carry a b c
  have sum (y : Byte) : ((Carried.add x y false).value.toNat : Int) = (a + y.toNat) % 256 :=
    congrArg Nat.cast (Carried.toNat_add x y false)
  have difference (y : Byte) :
      ((Carried.sub x y false).value.toNat : Int) = (a - y.toNat) % 256 := by
    simpa using Carried.toNat_sub x y false
  have flags (byte : Byte) (halfCarry : Bool) :
      (ByteOp.bitwise byte halfCarry).flags =
        ⟨decide (byte.toNat = 0), false, halfCarry, false⟩ := by
    rw [ByteOp.bitwise, beq_zero_eq_decide]
  refine ⟨?add, ?adc, ?sub, ?sbc, ?and, ?or, ?xor, ?cp, ?increment, ?decrement⟩
  case add => exact .of_setWithFlags rfl (sum y) (Carried.flags_add x y false)
  case adc =>
    exact .of_setWithFlags rfl (congrArg Nat.cast (Carried.toNat_add x y carry))
      (Carried.flags_add x y carry)
  case sub => exact .of_setWithFlags rfl (difference y) (Carried.flags_sub x y false)
  case sbc =>
    exact .of_setWithFlags rfl (Carried.toNat_sub x y carry) (Carried.flags_sub x y carry)
  case and =>
    exact .of_setWithFlags rfl (congrArg Nat.cast (BitVec.toNat_and x y)) (flags (x &&& y) true)
  case or =>
    exact .of_setWithFlags rfl (congrArg Nat.cast (BitVec.toNat_or x y)) (flags (x ||| y) false)
  case xor =>
    exact .of_setWithFlags rfl (congrArg Nat.cast (BitVec.toNat_xor x y)) (flags (x ^^^ y) false)
  case cp =>
    exact .of_setWithFlags (Registers.combine_cp _ destination y) rfl
      (Carried.flags_sub x y false)
  case increment =>
    exact .of_setWithFlags rfl (sum 1)
      (congrArg (fun flags : Flags => { flags with carry }) (Carried.flags_add x 1 false))
  case decrement =>
    exact .of_setWithFlags rfl (difference 1)
      (congrArg (fun flags : Flags => { flags with carry }) (Carried.flags_sub x 1 false))

end Sm83
