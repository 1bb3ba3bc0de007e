import Sm83.Proofs.Carried
import Sm83.Proofs.Chain.Basic

/-!
# Chains of binary bytes

Adding two bytes with carry, or subtracting them with borrow, in any two registers that hold data
is one position of a chain in base 256. Main statement: the chain computes sums and differences of
binary numbers of any length.
-/

namespace Sm83

namespace Binary

/-- The number that bytes stand for, the least significant first. -/
def value (bytes : List Byte) : Nat := numeral 256 BitVec.toNat bytes

/-- One position: the operands are loaded and combined. -/
def updates (op : ByteOp) (accumulator operand : Register) (x y : Byte) : List Update :=
  [.set accumulator x, .set operand y, .combine op operand accumulator]

/-- What a chain of binary positions leaves: as many bytes as there are positions, which stand for
the exact result up to a multiple of their range, and the carry. -/
structure Outcome (collected : Collected) (positions : Nat) (exact : Int) (carry : Bool) :
    Prop where
  length : collected.bytes.length = positions
  value : (value collected.bytes : Int) = exact % 256 ^ positions
  carry : collected.registers.flags.carry = carry

variable {accumulator operand : Register} {op : ByteOp}

/-! ## One position -/

/-- The operation sees the bytes that were loaded, and the carry that was there before. -/
theorem applyAll_updates (stores : op.stores = true) (different : accumulator ≠ operand)
    (data : accumulator ≠ .f) (dataOperand : operand ≠ .f) (x y : Byte)
    (registers : Registers) :
    let after := Update.applyAll (updates op accumulator operand x y) registers
    let result := op.eval x y registers.flags.carry
    after.get accumulator = result.value ∧ after.flags = result.flags := by
  intro after result
  let loaded := (registers.set accumulator x).set operand y
  have left : loaded.get accumulator = x := by
    rw [Registers.get_set_of_ne _ different, Registers.get_set_self,
      Register.keep_of_ne_f data]
  have right : loaded.get operand = y := by
    rw [Registers.get_set_self, Register.keep_of_ne_f dataOperand]
  have flags : loaded.flags = registers.flags := by
    rw [Registers.flags_set_of_ne_f _ dataOperand, Registers.flags_set_of_ne_f _ data]
  have ends : after = loaded.setWithFlags accumulator result.value result.flags := by
    change loaded.combine op accumulator (loaded.get operand) = _
    rw [Registers.combine, left, right, flags, if_pos stores]
  rw [ends, Registers.get_setWithFlags, if_neg data, if_pos rfl]
  exact ⟨rfl, rfl⟩

/-- A law of the operation is a law of the position. -/
theorem position_of_eval {sign : Int} (stores : op.stores = true)
    (different : accumulator ≠ operand) (data : accumulator ≠ .f) (dataOperand : operand ≠ .f)
    (law : ∀ (x y : Byte) (carryIn : Bool),
      let result := op.eval x y carryIn
      result.value.toNat + sign * (256 * result.flags.carry.toNat) =
        x.toNat + sign * (y.toNat + carryIn.toNat)) :
    Position sign 256 BitVec.toNat (fun _ => True) accumulator
      (updates op accumulator operand) where
  large := by decide
  small {byte} _ := byte.isLt
  good _ _ _ := trivial
  balance {x y} registers _ _ := by
    intro after
    obtain ⟨value, flags⟩ : after.get accumulator = _ ∧ after.flags = _ :=
      applyAll_updates stores different data dataOperand x y registers
    rw [value, flags]
    exact law x y registers.flags.carry

theorem position_sum (different : accumulator ≠ operand) (data : accumulator ≠ .f)
    (dataOperand : operand ≠ .f) :
    Position 1 256 BitVec.toNat (fun _ => True) accumulator
      (updates .adc accumulator operand) := by
  apply position_of_eval rfl different data dataOperand
  intro x y carryIn result
  have balance : result.value.toNat + 256 * result.flags.carry.toNat = _ :=
    Carried.toNat_add_add_carry x y carryIn
  zify at balance
  linear_combination balance

theorem position_difference (different : accumulator ≠ operand) (data : accumulator ≠ .f)
    (dataOperand : operand ≠ .f) :
    Position (-1) 256 BitVec.toNat (fun _ => True) accumulator
      (updates .sbc accumulator operand) := by
  apply position_of_eval rfl different data dataOperand
  intro x y borrowIn result
  have balance : result.value.toNat + _ = _ + 256 * result.flags.carry.toNat :=
    Carried.toNat_sub_add x y borrowIn
  zify at balance
  linear_combination balance

/-! ## Whole chains -/

/-- Chains of binary positions add and subtract numbers of any length in any two registers that
hold data, the carry flag being the carry or borrow into the first position and out of the
last. -/
theorem collect_binary (different : accumulator ≠ operand) (data : accumulator ≠ .f)
    (dataOperand : operand ≠ .f) {xs ys : List Byte} (same : xs.length = ys.length)
    (registers : Registers) :
    let x := value xs
    let y := value ys
    let c := registers.flags.carry.toNat
    let chain := fun op =>
      collect accumulator (List.zipWith (updates op accumulator operand) xs ys) registers
    Outcome (chain .adc) xs.length ((x : Int) + y + c)
        (decide (256 ^ xs.length ≤ x + y + c)) ∧
      Outcome (chain .sbc) xs.length ((x : Int) - y - c) (decide (x < y + c)) := by
  intro x y c chain
  have sum := position_sum different data dataOperand
  have difference := position_difference different data dataOperand
  have all (bytes : List Byte) : ∀ byte ∈ bytes, True := fun _ _ => trivial
  constructor
  · constructor
    · exact Position.length_collect same registers
    · rw [value, sum.numeral_collect same (all xs) (all ys) registers, one_mul, Int.add_assoc]
      rfl
    · exact sum.carry_collect_sum same (all xs) (all ys) registers
  · constructor
    · exact Position.length_collect same registers
    · rw [value, difference.numeral_collect same (all xs) (all ys) registers, neg_one_mul,
        Int.sub_sub]
      rfl
    · exact difference.carry_collect_difference same (all xs) (all ys) registers

/-- With the carry set, 0xFFFFFF and 0xFFFF00 make 0x1FFFF00, and 0x000100 less 0xFFFFFF is
-0xFFFF00. -/
theorem collect_binary_three_bytes :
    let registers : Registers := { flags := { carry := true } }
    let chain := fun op xs ys =>
      collect .h (List.zipWith (updates op .h .a) xs ys) registers
    let sum := chain .adc [0xFF, 0xFF, 0xFF] [0x00, 0xFF, 0xFF]
    let difference := chain .sbc [0x00, 0x01, 0x00] [0xFF, 0xFF, 0xFF]
    sum.bytes = [0x00, 0xFF, 0xFF] ∧ difference.bytes = [0x00, 0x01, 0x00] ∧
      Outcome sum 3 0x1FFFF00 true ∧ Outcome difference 3 (-0xFFFF00) true := by
  have different : Register.h ≠ .a := by decide
  have data : Register.h ≠ .f := by decide
  have dataOperand : Register.a ≠ .f := by decide
  refine ⟨rfl, rfl, ?_, ?_⟩
  · exact (@collect_binary .h .a different data dataOperand [0xFF, 0xFF, 0xFF]
      [0x00, 0xFF, 0xFF] rfl { flags := { carry := true } }).1
  · exact (@collect_binary .h .a different data dataOperand [0x00, 0x01, 0x00]
      [0xFF, 0xFF, 0xFF] rfl { flags := { carry := true } }).2

end Binary

end Sm83
