import Sm83.Arithmetic
import Mathlib.Data.Nat.Digits.Defs

/-!
# Carries as numbers

What sums and differences of bit vectors are as numbers, and when they carry. Main statements:
a sum and its carry make up the operands, and a difference and what was taken away make up the
operand and the borrow.
-/

namespace Sm83.Carried

variable {width : Nat}

theorem toNat_add (x y : BitVec width) (carryIn : Bool) :
    (add x y carryIn).value.toNat = (x.toNat + y.toNat + carryIn.toNat) % 2 ^ width := by
  simp [add, BitVec.toNat_add]

theorem carry_add (x y : BitVec width) (carryIn : Bool) :
    (add x y carryIn).carry = decide (2 ^ width ≤ x.toNat + y.toNat + carryIn.toNat) := by
  simp [add, BitVec.carry, Nat.mod_eq_of_lt x.isLt, Nat.mod_eq_of_lt y.isLt]

theorem halfCarry_add (x y : BitVec width) (carryIn : Bool) :
    (add x y carryIn).halfCarry =
      decide (2 ^ (width - 4) ≤
        x.toNat % 2 ^ (width - 4) + y.toNat % 2 ^ (width - 4) + carryIn.toNat) :=
  rfl

/-- A sum and its carry make up the operands. -/
theorem toNat_add_add_carry (x y : BitVec width) (carryIn : Bool) :
    (add x y carryIn).value.toNat + 2 ^ width * (add x y carryIn).carry.toNat =
      x.toNat + y.toNat + carryIn.toNat := by
  have hx := x.isLt
  have hy := y.isLt
  have hc := carryIn.toNat_le
  rw [toNat_add, carry_add]
  by_cases out : 2 ^ width ≤ x.toNat + y.toNat + carryIn.toNat
  · rw [Nat.mod_eq_sub_mod out, Nat.mod_eq_of_lt (by omega), decide_eq_true out]
    simp only [Bool.toNat_true, Nat.mul_one]
    omega
  · rw [Nat.mod_eq_of_lt (by omega), decide_eq_false out]
    simp

private theorem toNat_not_add (y : BitVec width) (borrowIn : Bool) :
    (~~~y).toNat + (!borrowIn).toNat + (y.toNat + borrowIn.toNat) = 2 ^ width := by
  have hy := y.isLt
  rw [BitVec.toNat_not]
  cases borrowIn <;> simp <;> omega

theorem carry_sub (x y : BitVec width) (borrowIn : Bool) :
    (sub x y borrowIn).carry = decide (x.toNat < y.toNat + borrowIn.toNat) := by
  have hy := toNat_not_add y borrowIn
  simp only [sub, carry_add, ← decide_not, decide_eq_decide]
  omega

/-- Below the half carry only the lower bits count. -/
theorem halfCarry_sub (x y : BitVec width) (borrowIn : Bool) :
    (sub x y borrowIn).halfCarry =
      decide (x.toNat % 2 ^ (width - 4) < y.toNat % 2 ^ (width - 4) + borrowIn.toNat) := by
  have lower := BitVec.setWidth_not (x := y) (Nat.sub_le width 4)
  have hy := toNat_not_add (y.setWidth (width - 4)) borrowIn
  rw [← lower, BitVec.toNat_setWidth, BitVec.toNat_setWidth] at hy
  simp only [sub, halfCarry_add, ← decide_not, decide_eq_decide]
  omega

/-- A difference and what was taken away make up the operand and the borrow. -/
theorem toNat_sub_add (x y : BitVec width) (borrowIn : Bool) :
    (sub x y borrowIn).value.toNat + (y.toNat + borrowIn.toNat) =
      x.toNat + 2 ^ width * (sub x y borrowIn).carry.toNat := by
  have hy := toNat_not_add y borrowIn
  have sum := toNat_add_add_carry x (~~~y) (!borrowIn)
  have value : (sub x y borrowIn).value = (add x (~~~y) (!borrowIn)).value := rfl
  have carry : (sub x y borrowIn).carry = !(add x (~~~y) (!borrowIn)).carry := rfl
  rw [value, carry]
  cases out : (add x (~~~y) (!borrowIn)).carry <;>
    simp only [out, Bool.toNat_false, Bool.toNat_true, Bool.not_false, Bool.not_true,
      Nat.mul_zero, Nat.mul_one] at sum ⊢ <;> omega

/-- The borrow tells whether a difference wraps. -/
theorem toNat_sub (x y : BitVec width) (borrowIn : Bool) :
    ((sub x y borrowIn).value.toNat : Int) =
      (x.toNat - y.toNat - borrowIn.toNat) % (2 ^ width : Nat) := by
  have small : ((sub x y borrowIn).value.toNat : Int) < (2 ^ width : Nat) :=
    Int.ofNat_lt.mpr (sub x y borrowIn).value.isLt
  have balance : ((sub x y borrowIn).value.toNat : Int) + (y.toNat + borrowIn.toNat) =
      x.toNat + (2 ^ width : Nat) * (sub x y borrowIn).carry.toNat :=
    congrArg Nat.cast (toNat_sub_add x y borrowIn)
  calc ((sub x y borrowIn).value.toNat : Int)
      = (sub x y borrowIn).value.toNat % (2 ^ width : Nat) :=
        (Int.emod_eq_of_lt (Int.natCast_nonneg _) small).symm
    _ = (x.toNat - y.toNat - borrowIn.toNat +
          (2 ^ width : Nat) * (sub x y borrowIn).carry.toNat) % (2 ^ width : Nat) := by
        congr 1
        omega
    _ = _ := Int.add_mul_emod_self_left ..

end Sm83.Carried
