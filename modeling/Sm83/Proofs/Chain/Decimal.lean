import Sm83.Proofs.Carried
import Sm83.Proofs.Chain.Basic

/-!
# Chains of decimal bytes

A decimal byte holds two digits. Adding two of them with carry, or subtracting them with
borrow, and adjusting the accumulator afterwards is one position of a chain in base 100. Main
statement: the chain computes sums and differences of decimal numbers of any length.
-/

namespace Sm83

namespace Decimal

/-- Both digits are decimal. -/
def IsDecimal (byte : Byte) : Prop := byte.toNat / 16 ≤ 9 ∧ byte.toNat % 16 ≤ 9

instance (byte : Byte) : Decidable (IsDecimal byte) := instDecidableAnd

/-- The number that two digits stand for. -/
def pairOfDigits (byte : Byte) : Nat := 10 * (byte.toNat / 16) + byte.toNat % 16

theorem pairOfDigits_lt {byte : Byte} (decimal : IsDecimal byte) : pairOfDigits byte < 100 := by
  unfold IsDecimal at decimal
  unfold pairOfDigits
  omega

/-! ## What an adjustment restores -/

/-- What an adjustment adds or takes away. -/
private theorem toNat_correction (lower upper : Bool) :
    ((if lower then 0x06 else 0 : Byte) ||| (if upper then 0x60 else 0)).toNat =
      6 * lower.toNat + 96 * upper.toNat := by
  cases lower <;> cases upper <;> rfl

theorem adjustment_of_added (value : Byte) {flags : Flags} (added : flags.subtract = false) :
    let adjusted := decimalAdjustment value flags
    let lower := flags.halfCarry || decide (0x09 < value.toNat % 16)
    let upper := flags.carry || decide (0x99 < value.toNat)
    adjusted.value.toNat = (value.toNat + (6 * lower.toNat + 96 * upper.toNat)) % 256 ∧
      adjusted.flags.carry = upper := by
  simp only [decimalAdjustment, added, Bool.not_false, Bool.true_and, Bool.false_eq_true,
    if_false, BitVec.toNat_add, toNat_correction, and_self]

theorem adjustment_of_subtracted (value : Byte) {flags : Flags}
    (subtracted : flags.subtract = true) :
    let adjusted := decimalAdjustment value flags
    (adjusted.value.toNat + (6 * flags.halfCarry.toNat + 96 * flags.carry.toNat)) % 256 =
        value.toNat ∧
      adjusted.flags.carry = flags.carry := by
  have smallHalf := flags.halfCarry.toNat_le
  have smallCarry := flags.carry.toNat_le
  simp only [decimalAdjustment, subtracted, Bool.not_true, Bool.false_and, Bool.or_false,
    if_true, BitVec.toNat_sub, toNat_correction, and_true]
  omega

theorem lower_sum (x y : Byte) (carryIn : Bool) :
    let sum := ByteOp.adc.eval x y carryIn
    (sum.flags.halfCarry || decide (0x09 < sum.value.toNat % 16)) =
      decide (9 < x.toNat % 16 + y.toNat % 16 + carryIn.toNat) := by
  intro sum
  have total : sum.value.toNat = _ := Carried.toNat_add x y carryIn
  have half : sum.flags.halfCarry = _ := Carried.halfCarry_add x y carryIn
  have small := carryIn.toNat_le
  rw [half, ← Bool.decide_or, decide_eq_decide]
  omega

theorem upper_sum (x y : Byte) (carryIn : Bool) :
    let sum := ByteOp.adc.eval x y carryIn
    (sum.flags.carry || decide (0x99 < sum.value.toNat)) =
      decide (0x99 < x.toNat + y.toNat + carryIn.toNat) := by
  intro sum
  have total : sum.value.toNat = _ := Carried.toNat_add x y carryIn
  have carry : sum.flags.carry = _ := Carried.carry_add x y carryIn
  rw [carry, ← Bool.decide_or, decide_eq_decide]
  omega

/-- The lower digit is corrected when the lower digits pass nine, the upper digit when the
two numbers pass ninety-nine. -/
theorem adjustment_sum {x y : Byte} (carryIn : Bool) (decimalX : IsDecimal x)
    (decimalY : IsDecimal y) :
    let sum := ByteOp.adc.eval x y carryIn
    let adjusted := decimalAdjustment sum.value sum.flags
    IsDecimal adjusted.value ∧
      pairOfDigits adjusted.value + 100 * adjusted.flags.carry.toNat =
        pairOfDigits x + pairOfDigits y + carryIn.toNat := by
  intro sum adjusted
  have total : sum.value.toNat = _ := Carried.toNat_add x y carryIn
  have small := carryIn.toNat_le
  obtain ⟨value, carry⟩ : adjusted.value.toNat = _ ∧ adjusted.flags.carry = _ :=
    adjustment_of_added sum.value rfl
  rw [lower_sum, upper_sum] at value
  rw [upper_sum] at carry
  simp only [IsDecimal, pairOfDigits] at decimalX decimalY ⊢
  rw [carry, value, total]
  -- The two digits are corrected independently: four linear cases.
  by_cases lower : 9 < x.toNat % 16 + y.toNat % 16 + carryIn.toNat <;>
    by_cases upper : 0x99 < x.toNat + y.toNat + carryIn.toNat <;>
      simp only [lower, upper, decide_true, decide_false, Bool.toNat_true, Bool.toNat_false] <;>
      omega

/-- A digit is corrected when it borrowed. -/
theorem adjustment_difference {x y : Byte} (borrowIn : Bool) (decimalX : IsDecimal x)
    (decimalY : IsDecimal y) :
    let difference := ByteOp.sbc.eval x y borrowIn
    let adjusted := decimalAdjustment difference.value difference.flags
    IsDecimal adjusted.value ∧
      pairOfDigits adjusted.value + (pairOfDigits y + borrowIn.toNat) =
        pairOfDigits x + 100 * adjusted.flags.carry.toNat := by
  intro difference adjusted
  have total : difference.value.toNat + _ = _ + 2 ^ 8 * difference.flags.carry.toNat :=
    Carried.toNat_sub_add x y borrowIn
  have half : difference.flags.halfCarry = _ := Carried.halfCarry_sub x y borrowIn
  have borrow : difference.flags.carry = _ := Carried.carry_sub x y borrowIn
  have small := borrowIn.toNat_le
  have range := adjusted.value.isLt
  obtain ⟨value, carry⟩ : (adjusted.value.toNat + _) % 256 = _ ∧ adjusted.flags.carry = _ :=
    adjustment_of_subtracted difference.value rfl
  simp only [IsDecimal, pairOfDigits] at decimalX decimalY ⊢
  rw [half] at value
  rw [borrow] at value carry total
  rw [carry]
  by_cases lower : x.toNat % 2 ^ 4 < y.toNat % 2 ^ 4 + borrowIn.toNat <;>
    by_cases upper : x.toNat < y.toNat + borrowIn.toNat <;>
      simp only [lower, upper, decide_true, decide_false, Bool.toNat_true, Bool.toNat_false]
        at value total ⊢ <;>
      omega

/-! ## One position -/

/-- One position: the operands are loaded, combined and adjusted. -/
def updates (op : ByteOp) (x y : Byte) : List Update :=
  [.set .a x, .set .b y, .combine op .b .a, .adjustDecimal]

theorem applyAll_updates {op : ByteOp} (stores : op.stores = true) (x y : Byte)
    (registers : Registers) :
    let after := Update.applyAll (updates op x y) registers
    let result := op.eval x y registers.flags.carry
    let adjusted := decimalAdjustment result.value result.flags
    after.a = adjusted.value ∧ after.flags = adjusted.flags := by
  cases op <;> first | exact ⟨rfl, rfl⟩ | exact absurd stores Bool.false_ne_true

/-- A law of the adjusted result is a law of the position. -/
theorem position_of_adjustment {sign : Int} {op : ByteOp} (stores : op.stores = true)
    (law : ∀ {x y : Byte} (carryIn : Bool), IsDecimal x → IsDecimal y →
      let result := op.eval x y carryIn
      let adjusted := decimalAdjustment result.value result.flags
      IsDecimal adjusted.value ∧
        pairOfDigits adjusted.value + sign * (100 * adjusted.flags.carry.toNat) =
          pairOfDigits x + sign * (pairOfDigits y + carryIn.toNat)) :
    Position sign 100 pairOfDigits IsDecimal .a (updates op) where
  large := by decide
  small := pairOfDigits_lt
  good {x y} registers decimalX decimalY := by
    obtain ⟨value, -⟩ := applyAll_updates stores x y registers
    rw [Registers.get, value]
    exact (law registers.flags.carry decimalX decimalY).1
  balance {x y} registers decimalX decimalY := by
    intro after
    obtain ⟨value, flags⟩ : after.a = _ ∧ after.flags = _ := applyAll_updates stores x y registers
    rw [Registers.get, value, flags]
    exact (law registers.flags.carry decimalX decimalY).2

theorem position_sum : Position 1 100 pairOfDigits IsDecimal .a (updates .adc) := by
  apply position_of_adjustment rfl
  intro x y carryIn decimalX decimalY
  obtain ⟨decimal, balance⟩ := adjustment_sum carryIn decimalX decimalY
  refine ⟨decimal, ?_⟩
  zify at balance
  linear_combination balance

theorem position_difference :
    Position (-1) 100 pairOfDigits IsDecimal .a (updates .sbc) := by
  apply position_of_adjustment rfl
  intro x y borrowIn decimalX decimalY
  obtain ⟨decimal, balance⟩ := adjustment_difference borrowIn decimalX decimalY
  refine ⟨decimal, ?_⟩
  zify at balance
  linear_combination balance

/-! ## Whole chains -/

/-- What a chain of decimal positions leaves: as many decimal bytes as there are positions,
which stand for the exact result up to a multiple of their range, and the flags. -/
structure Outcome (collected : Collected) (positions : Nat) (exact : Int)
    (subtract carry : Bool) : Prop where
  length : collected.bytes.length = positions
  decimal : ∀ byte ∈ collected.bytes, IsDecimal byte
  value : (numeral 100 pairOfDigits collected.bytes : Int) = exact % 100 ^ positions
  flags : collected.registers.flags =
    { zero := collected.bytes.getLast? == some 0, subtract, halfCarry := false, carry }

/-- The flags at the end are those of the last adjustment, which shows its own byte. -/
theorem flags_collect {op : ByteOp} {subtract : Bool} (stores : op.stores = true)
    (kind : ∀ x y carryIn, (op.eval x y carryIn).flags.subtract = subtract)
    {xs ys : List Byte} (nonempty : xs ≠ []) (same : xs.length = ys.length)
    (registers : Registers) :
    let collected := collect .a (List.zipWith (updates op) xs ys) registers
    collected.registers.flags =
      { zero := collected.bytes.getLast? == some 0, subtract, halfCarry := false,
        carry := collected.registers.flags.carry } := by
  intro collected
  obtain ⟨⟨x, y, before, ends⟩, last⟩ : (∃ x y before, collected.registers = _) ∧
    collected.bytes.getLast? = some collected.registers.a :=
      collect_ends nonempty same registers
  obtain ⟨value, flags⟩ : collected.registers.a = _ ∧ collected.registers.flags = _ :=
    ends ▸ applyAll_updates stores x y before
  rw [last, value, flags, ← kind x y before.flags.carry]
  rfl

/-- Chains of decimal positions add and subtract decimal numbers of any length, the carry
flag being the carry or borrow into the first position and out of the last. -/
theorem collect_decimal {xs ys : List Byte} (nonempty : xs ≠ []) (same : xs.length = ys.length)
    (decimalX : ∀ x ∈ xs, IsDecimal x) (decimalY : ∀ y ∈ ys, IsDecimal y)
    (registers : Registers) :
    let x := numeral 100 pairOfDigits xs
    let y := numeral 100 pairOfDigits ys
    let c := registers.flags.carry.toNat
    Outcome (collect .a (List.zipWith (updates .adc) xs ys) registers) xs.length
        ((x : Int) + y + c) false (decide (100 ^ xs.length ≤ x + y + c)) ∧
      Outcome (collect .a (List.zipWith (updates .sbc) xs ys) registers) xs.length
        ((x : Int) - y - c) true (decide (x < y + c)) := by
  intro x y c
  constructor
  · constructor
    · exact Position.length_collect same registers
    · exact position_sum.good_collect same decimalX decimalY registers
    · rw [position_sum.numeral_collect same decimalX decimalY registers, one_mul, Int.add_assoc]
      rfl
    · rw [flags_collect rfl (fun _ _ _ => rfl) nonempty same registers,
        position_sum.carry_collect_sum same decimalX decimalY registers]
  · constructor
    · exact Position.length_collect same registers
    · exact position_difference.good_collect same decimalX decimalY registers
    · rw [position_difference.numeral_collect same decimalX decimalY registers, neg_one_mul,
        Int.sub_sub]
      rfl
    · rw [flags_collect rfl (fun _ _ _ => rfl) nonempty same registers,
        position_difference.carry_collect_difference same decimalX decimalY registers]

/-- With the carry set, 4567 and 8234 make 12802, and the difference is -3668. -/
theorem collect_decimal_4567_8234 :
    let registers : Registers := { flags := { carry := true } }
    let sum := collect .a (List.zipWith (updates .adc) [0x67, 0x45] [0x34, 0x82]) registers
    let difference := collect .a (List.zipWith (updates .sbc) [0x67, 0x45] [0x34, 0x82]) registers
    sum.bytes = [0x02, 0x28] ∧ difference.bytes = [0x32, 0x63] ∧
      Outcome sum 2 12802 false true ∧ Outcome difference 2 (-3668) true true := by
  refine ⟨rfl, rfl, ?_⟩
  exact @collect_decimal [0x67, 0x45] [0x34, 0x82] (by decide) rfl (by decide) (by decide)
    { flags := { carry := true } }

end Decimal

end Sm83
