import Sm83.Update
import Mathlib.Data.Nat.Digits.Defs
import Mathlib.Tactic.LinearCombination

/-!
# Chains of updates

A number longer than a byte is worked on one position after another, the least significant
first. At each position a few updates run and a register is read back; the carry that they
leave is the carry of the next position. Main statement: if every position balances its digits
against the two carries, so does the chain, with the carries before and after it.
-/

namespace Sm83

/-- Applies updates one after another. -/
def Update.applyAll (updates : List Update) (registers : Registers) : Registers :=
  updates.foldl (fun registers update => update.apply registers) registers

/-- The bytes that were read back along a chain, and the registers at its end. -/
structure Collected where
  bytes : List Byte
  registers : Registers
  deriving DecidableEq, Repr

/-- Runs the updates of each position in order and reads a register back after each. -/
def collect (register : Register) : List (List Update) → Registers → Collected
  | [], registers => ⟨[], registers⟩
  | updates :: positions, registers =>
      let after := Update.applyAll updates registers
      let rest := collect register positions after
      ⟨after.get register :: rest.bytes, rest.registers⟩

/-- Two lists of one length grow together. -/
@[elab_as_elim] theorem pairwise_induction
    {motive : (xs ys : List Byte) → xs.length = ys.length → Prop} (nil : motive [] [] rfl)
    (cons : ∀ (x y : Byte) (xs ys : List Byte) (same : xs.length = ys.length),
      motive xs ys same → motive (x :: xs) (y :: ys) (congrArg (· + 1) same))
    (xs ys : List Byte) (same : xs.length = ys.length) : motive xs ys same := by
  induction xs generalizing ys with
  | nil =>
      obtain rfl := List.length_eq_zero_iff.mp same.symm
      exact nil
  | cons x xs ih =>
      cases ys with
      | nil => exact absurd same (Nat.succ_ne_zero _)
      | cons y ys => exact cons x y xs ys (Nat.succ.inj same) (ih ys (Nat.succ.inj same))

/-- The last byte is what the register holds at the end. -/
theorem collect_ends {register : Register} {updates : Byte → Byte → List Update}
    {xs ys : List Byte} (nonempty : xs ≠ []) (same : xs.length = ys.length)
    (registers : Registers) :
    let collected := collect register (List.zipWith updates xs ys) registers
    (∃ x y before, collected.registers = Update.applyAll (updates x y) before) ∧
      collected.bytes.getLast? = some (collected.registers.get register) := by
  induction xs, ys, same using pairwise_induction generalizing registers with
  | nil => exact absurd rfl nonempty
  | cons x y xs ys same ih =>
      cases xs with
      | nil =>
          obtain rfl := List.length_eq_zero_iff.mp same.symm
          exact ⟨⟨x, y, registers, rfl⟩, rfl⟩
      | cons next xs =>
          obtain ⟨ends, last⟩ := ih (List.cons_ne_nil _ _) (Update.applyAll (updates x y) registers)
          refine ⟨ends, ?_⟩
          rw [List.zipWith_cons_cons, collect, List.getLast?_cons, last]
          rfl

/-- The number that a list of bytes stands for, the least significant first. -/
def numeral (base : Nat) (digit : Byte → Nat) (bytes : List Byte) : Nat :=
  Nat.ofDigits base (bytes.map digit)

theorem numeral_cons (base : Nat) (digit : Byte → Nat) (byte : Byte) (bytes : List Byte) :
    numeral base digit (byte :: bytes) = digit byte + base * numeral base digit bytes :=
  Nat.ofDigits_cons

theorem numeral_lt {base : Nat} {digit : Byte → Nat} {bytes : List Byte} (large : 1 < base)
    (small : ∀ byte ∈ bytes, digit byte < base) :
    numeral base digit bytes < base ^ bytes.length := by
  have bound := Nat.ofDigits_lt_base_pow_length (l := bytes.map digit) large (by simpa using small)
  rwa [List.length_map] at bound

/-- One position of a chain that adds if `sign` is 1 and subtracts if it is -1. From good bytes
it leaves a good byte, and that byte and the carry out balance the operands and the carry in. -/
structure Position (sign : Int) (base : Nat) (digit : Byte → Nat) (Good : Byte → Prop)
    (register : Register) (updates : Byte → Byte → List Update) : Prop where
  large : 1 < base
  small : ∀ {byte : Byte}, Good byte → digit byte < base
  good : ∀ {x y : Byte} (registers : Registers), Good x → Good y →
    Good ((Update.applyAll (updates x y) registers).get register)
  balance : ∀ {x y : Byte} (registers : Registers), Good x → Good y →
    let after := Update.applyAll (updates x y) registers
    digit (after.get register) + sign * (base * after.flags.carry.toNat) =
      digit x + sign * (digit y + registers.flags.carry.toNat)

namespace Position

variable {sign : Int} {base : Nat} {digit : Byte → Nat} {Good : Byte → Prop}
variable {register : Register} {updates : Byte → Byte → List Update}
variable {xs ys : List Byte}

theorem length_collect (same : xs.length = ys.length) (registers : Registers) :
    (collect register (List.zipWith updates xs ys) registers).bytes.length = xs.length := by
  induction xs, ys, same using pairwise_induction generalizing registers with
  | nil => rfl
  | cons x y xs ys same ih => simp [collect, ih]

theorem good_collect (position : Position sign base digit Good register updates)
    (same : xs.length = ys.length) (goodX : ∀ x ∈ xs, Good x) (goodY : ∀ y ∈ ys, Good y)
    (registers : Registers) :
    ∀ byte ∈ (collect register (List.zipWith updates xs ys) registers).bytes, Good byte := by
  induction xs, ys, same using pairwise_induction generalizing registers with
  | nil => simp [collect]
  | cons x y xs ys same ih =>
      rw [List.forall_mem_cons] at goodX goodY
      simp only [List.zipWith_cons_cons, collect, List.forall_mem_cons]
      exact ⟨position.good registers goodX.1 goodY.1, ih goodX.2 goodY.2 _⟩

/-- The carry out of one position is the carry into the next, so the balances add up. -/
theorem balance_collect (position : Position sign base digit Good register updates)
    (same : xs.length = ys.length) (goodX : ∀ x ∈ xs, Good x) (goodY : ∀ y ∈ ys, Good y)
    (registers : Registers) :
    let collected := collect register (List.zipWith updates xs ys) registers
    numeral base digit collected.bytes +
        sign * (base ^ xs.length * collected.registers.flags.carry.toNat) =
      numeral base digit xs +
        sign * (numeral base digit ys + registers.flags.carry.toNat) := by
  induction xs, ys, same using pairwise_induction generalizing registers with
  | nil => simp [collect, numeral]
  | cons x y xs ys same ih =>
      rw [List.forall_mem_cons] at goodX goodY
      have first := position.balance registers goodX.1 goodY.1
      have rest := ih goodX.2 goodY.2 (Update.applyAll (updates x y) registers)
      simp only [List.zipWith_cons_cons, collect, numeral_cons, List.length_cons, Nat.cast_add,
        Nat.cast_mul] at first rest ⊢
      linear_combination first + base * rest

theorem numeral_lt_pow (position : Position sign base digit Good register updates)
    (same : xs.length = ys.length) (goodX : ∀ x ∈ xs, Good x) (goodY : ∀ y ∈ ys, Good y)
    (registers : Registers) :
    numeral base digit (collect register (List.zipWith updates xs ys) registers).bytes <
      base ^ xs.length := by
  rw [← length_collect same registers]
  apply numeral_lt position.large
  intro byte isMember
  exact position.small (position.good_collect same goodX goodY registers byte isMember)

/-- The bytes read back are those of the exact result, modulo the numbers of their length. -/
theorem numeral_collect (position : Position sign base digit Good register updates)
    (same : xs.length = ys.length) (goodX : ∀ x ∈ xs, Good x) (goodY : ∀ y ∈ ys, Good y)
    (registers : Registers) :
    (numeral base digit (collect register (List.zipWith updates xs ys) registers).bytes : Int) =
      (numeral base digit xs + sign * (numeral base digit ys + registers.flags.carry.toNat)) %
        base ^ xs.length := by
  have bound := position.numeral_lt_pow same goodX goodY registers
  rw [← position.balance_collect same goodX goodY registers, mul_left_comm,
    Int.add_mul_emod_self_left, Int.emod_eq_of_lt (Int.natCast_nonneg _)]
  exact_mod_cast bound

/-- A chain of additions carries out when the sum has too many digits. -/
theorem carry_collect_sum (position : Position 1 base digit Good register updates)
    (same : xs.length = ys.length) (goodX : ∀ x ∈ xs, Good x) (goodY : ∀ y ∈ ys, Good y)
    (registers : Registers) :
    (collect register (List.zipWith updates xs ys) registers).registers.flags.carry =
      decide (base ^ xs.length ≤
        numeral base digit xs + numeral base digit ys + registers.flags.carry.toNat) := by
  have bound := position.numeral_lt_pow same goodX goodY registers
  have balance := position.balance_collect same goodX goodY registers
  simp only [one_mul, ← Int.add_assoc] at balance
  norm_cast at balance
  rw [← balance]
  cases (collect register (List.zipWith updates xs ys) registers).registers.flags.carry with
  | false => simpa using bound
  | true => simp

/-- A chain of subtractions borrows when more is taken away than is there. -/
theorem carry_collect_difference (position : Position (-1) base digit Good register updates)
    (same : xs.length = ys.length) (goodX : ∀ x ∈ xs, Good x) (goodY : ∀ y ∈ ys, Good y)
    (registers : Registers) :
    (collect register (List.zipWith updates xs ys) registers).registers.flags.carry =
      decide (numeral base digit xs <
        numeral base digit ys + registers.flags.carry.toNat) := by
  have bound := position.numeral_lt_pow same goodX goodY registers
  have balance := position.balance_collect same goodX goodY registers
  simp only [neg_one_mul, ← sub_eq_add_neg] at balance
  cases out : (collect register (List.zipWith updates xs ys) registers).registers.flags.carry with
  | false =>
      rw [eq_comm, decide_eq_false_iff_not]
      simp only [out, Bool.toNat_false] at balance
      omega
  | true =>
      rw [eq_comm, decide_eq_true_iff]
      simp only [out, Bool.toNat_true] at balance
      zify at bound ⊢
      omega

end Position

end Sm83
