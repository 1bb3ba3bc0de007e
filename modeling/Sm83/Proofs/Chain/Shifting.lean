import Sm83.Proofs.Chain.Binary

/-!
# Chains of shifted bytes

A number of several bytes is shifted by one place byte after byte: the bit that leaves one byte as
the carry enters the next. To the left the chain starts at the least significant byte, to the right
at the most significant one, and the first shift decides which bit enters there. Main statement: the
chains double and halve numbers of any length, and the two that rotate through the carry undo each
other.
-/

namespace Sm83

/-! ## One byte -/

namespace Shift

/-- A shift to the left, with the bit that enters below. -/
def MovesLeft (kind : Shift) (fill : Byte → Bool → Bool) : Prop :=
  ∀ (byte : Byte) (carry : Bool),
    let moved := kind.eval byte carry
    moved.value.toNat + 256 * moved.out.toNat = 2 * byte.toNat + (fill byte carry).toNat

/-- A shift to the right, with the bit that enters above. -/
def MovesRight (kind : Shift) (fill : Byte → Bool → Bool) : Prop :=
  ∀ (byte : Byte) (carry : Bool),
    let moved := kind.eval byte carry
    2 * moved.value.toNat + moved.out.toNat = byte.toNat + 256 * (fill byte carry).toNat

theorem movesLeft_sla : MovesLeft .sla fun _ _ => false := by
  unfold MovesLeft
  decide +kernel

theorem movesLeft_rl : MovesLeft (.rotate .rl) fun _ carry => carry := by
  unfold MovesLeft
  decide +kernel

theorem movesRight_srl : MovesRight .srl fun _ _ => false := by
  unfold MovesRight
  decide +kernel

/-- An arithmetic shift repeats the top bit. -/
theorem movesRight_sra : MovesRight .sra fun byte _ => byte.msb := by
  unfold MovesRight
  decide +kernel

theorem movesRight_rr : MovesRight (.rotate .rr) fun _ carry => carry := by
  unfold MovesRight
  decide +kernel

/-- One position: a byte is loaded and shifted. -/
def updates (kind : Shift) (register : Register) (byte : Byte) : List Update :=
  [.set register byte, .shift kind register]

/-- The shift sees the byte that was loaded, and the carry that was there before. -/
theorem applyAll_updates (kind : Shift) {register : Register} (data : register ≠ .f) (byte : Byte)
    (registers : Registers) :
    let after := Update.applyAll (kind.updates register byte) registers
    let moved := kind.eval byte registers.flags.carry
    after.get register = moved.value ∧ after.flags.carry = moved.out := by
  intro after moved
  let loaded := registers.set register byte
  have held : loaded.get register = byte := by
    rw [Registers.get_set_self, Register.keep_of_ne_f data]
  have flags : loaded.flags = registers.flags := registers.flags_set_of_ne_f data byte
  have ends : after = loaded.setWithFlags register moved.value
      { zero := moved.value == 0, carry := moved.out } := by
    change loaded.shift kind register = _
    rw [Registers.shift, held, flags]
  rw [ends, Registers.get_setWithFlags, if_neg data, if_pos rfl]
  exact ⟨rfl, rfl⟩

/-- The positions of a chain. The first byte is shifted in one way and all others in another. -/
def positions (first next : Shift) (register : Register) : List Byte → List (List Update)
  | [] => []
  | byte :: rest => first.updates register byte :: rest.map (next.updates register)

end Shift

/-- Shifts a number to the left, the least significant byte first. -/
def leftChain (first : Shift) (register : Register) (bytes : List Byte) (registers : Registers) :
    Collected :=
  collect register (first.positions (.rotate .rl) register bytes) registers

/-- Shifts a number to the right, the most significant byte first. -/
def rightChain (first : Shift) (register : Register) (bytes : List Byte) (registers : Registers) :
    Collected :=
  let collected := collect register (first.positions (.rotate .rr) register bytes.reverse) registers
  { collected with bytes := collected.bytes.reverse }

namespace Binary

variable {register : Register}

theorem value_cons (byte : Byte) (bytes : List Byte) :
    value (byte :: bytes) = byte.toNat + 256 * value bytes :=
  numeral_cons 256 BitVec.toNat byte bytes

theorem value_concat (bytes : List Byte) (byte : Byte) :
    value (bytes ++ [byte]) = value bytes + 256 ^ bytes.length * byte.toNat := by
  simp [value, numeral, Nat.ofDigits_append]

/-- A byte in front counts most if the last byte counts least. -/
theorem value_reverse_cons (byte : Byte) (bytes : List Byte) :
    value (byte :: bytes).reverse = value bytes.reverse + 256 ^ bytes.length * byte.toNat := by
  rw [List.reverse_cons, value_concat, List.length_reverse]

theorem value_lt (bytes : List Byte) : value bytes < 256 ^ bytes.length :=
  numeral_lt (by decide) fun byte _ => byte.isLt

/-- Lists of one length that stand for one number are equal. -/
theorem eq_of_value_eq {xs ys : List Byte} (length : xs.length = ys.length)
    (same : value xs = value ys) : xs = ys := by
  have small (bytes : List Byte) : ∀ digit ∈ bytes.map BitVec.toNat, digit < 256 := by
    rw [List.forall_mem_map]
    exact fun byte _ => byte.isLt
  have digits : xs.map BitVec.toNat = ys.map BitVec.toNat := by
    apply Nat.ofDigits_inj_of_len_eq (by decide : 1 < 256) _ (small xs) (small ys) same
    rw [List.length_map, List.length_map, length]
  exact (List.map_inj_right fun _ _ => BitVec.eq_of_toNat_eq).mp digits

end Binary

/-! ## Whole chains -/

theorem length_collect (register : Register) (positions : List (List Update))
    (registers : Registers) :
    (collect register positions registers).bytes.length = positions.length := by
  induction positions generalizing registers with
  | nil => rfl
  | cons updates rest ih => rw [collect, List.length_cons, ih, List.length_cons]

variable {register : Register} {first : Shift} {fill : Byte → Bool → Bool}

@[simp] theorem Shift.length_positions (first next : Shift) (bytes : List Byte) :
    (first.positions next register bytes).length = bytes.length := by
  cases bytes <;> simp [positions]

/-- Each byte takes in the carry of the byte below, so the balances add up. -/
theorem Shift.MovesLeft.balance_collect (moves : first.MovesLeft fill) (data : register ≠ .f)
    (byte : Byte) (rest : List Byte) (registers : Registers) :
    let collected :=
      collect register (first.positions (.rotate .rl) register (byte :: rest)) registers
    Binary.value collected.bytes +
        256 ^ (rest.length + 1) * collected.registers.flags.carry.toNat =
      2 * Binary.value (byte :: rest) + (fill byte registers.flags.carry).toNat := by
  induction rest generalizing first fill byte registers with
  | nil =>
      obtain ⟨held, out⟩ := first.applyAll_updates data byte registers
      have moved := moves byte registers.flags.carry
      simpa [positions, collect, Binary.value, numeral, held, out] using moved
  | cons next rest ih =>
      obtain ⟨held, out⟩ := first.applyAll_updates data byte registers
      have moved := moves byte registers.flags.carry
      have behind :=
        ih movesLeft_rl next (Update.applyAll (first.updates register byte) registers)
      rw [positions, List.map_cons, collect, ← positions]
      simp only [Binary.value_cons, held, out, List.length_cons, pow_succ] at moved behind ⊢
      linear_combination moved + 256 * behind

/-- Each byte takes in the carry of the byte above, so the balances add up. The bytes stand in
descending order. -/
theorem Shift.MovesRight.balance_collect (moves : first.MovesRight fill) (data : register ≠ .f)
    (byte : Byte) (rest : List Byte) (registers : Registers) :
    let collected :=
      collect register (first.positions (.rotate .rr) register (byte :: rest)) registers
    2 * Binary.value collected.bytes.reverse + collected.registers.flags.carry.toNat =
      Binary.value (byte :: rest).reverse +
        256 ^ (rest.length + 1) * (fill byte registers.flags.carry).toNat := by
  induction rest generalizing first fill byte registers with
  | nil =>
      obtain ⟨held, out⟩ := first.applyAll_updates data byte registers
      have moved := moves byte registers.flags.carry
      simpa [positions, collect, Binary.value, numeral, held, out] using moved
  | cons next rest ih =>
      obtain ⟨held, out⟩ := first.applyAll_updates data byte registers
      have moved := moves byte registers.flags.carry
      have behind :=
        ih movesRight_rr next (Update.applyAll (first.updates register byte) registers)
      rw [positions, List.map_cons, collect, ← positions]
      simp only [Binary.value_reverse_cons, length_collect, length_positions, held, out,
        List.length_cons, pow_succ] at moved behind ⊢
      linear_combination behind + 256 ^ (rest.length + 1) * moved

theorem length_leftChain (first : Shift) (register : Register) (bytes : List Byte)
    (registers : Registers) :
    (leftChain first register bytes registers).bytes.length = bytes.length := by
  rw [leftChain, length_collect, Shift.length_positions]

theorem length_rightChain (first : Shift) (register : Register) (bytes : List Byte)
    (registers : Registers) :
    (rightChain first register bytes registers).bytes.length = bytes.length := by
  rw [rightChain, List.length_reverse, length_collect, Shift.length_positions,
    List.length_reverse]

variable {bytes : List Byte}

theorem Shift.MovesLeft.balance (moves : first.MovesLeft fill) (data : register ≠ .f)
    (nonempty : bytes ≠ []) (registers : Registers) :
    let shifted := leftChain first register bytes registers
    Binary.value shifted.bytes + 256 ^ bytes.length * shifted.registers.flags.carry.toNat =
      2 * Binary.value bytes + (fill (bytes.head nonempty) registers.flags.carry).toNat := by
  cases bytes with
  | nil => exact absurd rfl nonempty
  | cons byte rest => exact moves.balance_collect data byte rest registers

theorem Shift.MovesRight.balance (moves : first.MovesRight fill) (data : register ≠ .f)
    (nonempty : bytes ≠ []) (registers : Registers) :
    let shifted := rightChain first register bytes registers
    2 * Binary.value shifted.bytes + shifted.registers.flags.carry.toNat =
      Binary.value bytes +
        256 ^ bytes.length * (fill (bytes.getLast nonempty) registers.flags.carry).toNat := by
  have descending : bytes.getLast nonempty :: bytes.dropLast.reverse = bytes.reverse := by
    rw [← List.reverse_concat, List.dropLast_concat_getLast]
  have length : bytes.dropLast.reverse.length + 1 = bytes.length := by
    simpa using congrArg List.length descending
  have balance := moves.balance_collect data (bytes.getLast nonempty) bytes.dropLast.reverse
    registers
  rw [descending, length, List.reverse_reverse] at balance
  exact balance

/-! ## Numbers doubled and halved -/

/-- The number that bytes stand for if their top bit counts as a sign. -/
def Binary.signed (bytes : List Byte) : Int :=
  if 2 * Binary.value bytes < 256 ^ bytes.length then Binary.value bytes
  else Binary.value bytes - 256 ^ bytes.length

/-- What a chain of shifts leaves: as many bytes as it took, the number that they stand for and the
carry. -/
structure Yields (collected : Collected) (count : Nat) (number : Int) (carry : Bool) : Prop where
  length : collected.bytes.length = count
  value : (Binary.value collected.bytes : Int) = number
  carry : collected.registers.flags.carry = carry

theorem two_dvd_pow_length (nonempty : bytes ≠ []) : 2 ∣ 256 ^ bytes.length :=
  dvd_pow (by decide) (List.length_pos_iff.mpr nonempty).ne'

/-- An even size is reached by twice a number no sooner if a bit enters below. -/
theorem doubled_of_balance {number size x : Nat} {carry entered : Bool} (even : 2 ∣ size)
    (small : number < size) (balance : number + size * carry.toNat = 2 * x + entered.toNat) :
    number = (2 * x + entered.toNat) % size ∧ carry = decide (size ≤ 2 * x) := by
  constructor
  · rw [← balance, Nat.add_mul_mod_self_left, Nat.mod_eq_of_lt small]
  · obtain ⟨half, rfl⟩ := even
    have one := entered.toNat_le
    rw [eq_comm]
    cases carry with
    | false =>
        rw [decide_eq_false_iff_not]
        rw [Bool.toNat_false, Nat.mul_zero] at balance
        omega
    | true =>
        rw [decide_eq_true_iff]
        rw [Bool.toNat_true, Nat.mul_one] at balance
        omega

theorem halved_of_balance {number size x : Nat} {carry entered : Bool} (even : 2 ∣ size)
    (balance : 2 * number + carry.toNat = x + size * entered.toNat) :
    number = (x + entered.toNat * size) / 2 ∧ carry = decide (x % 2 = 1) := by
  have one := carry.toNat_le
  have parity : 2 ∣ size * entered.toNat := Dvd.dvd.mul_right even _
  rw [Nat.mul_comm entered.toNat]
  constructor
  · omega
  · rw [eq_comm]
    cases carry with
    | false =>
        rw [decide_eq_false_iff_not]
        rw [Bool.toNat_false] at balance
        omega
    | true =>
        rw [decide_eq_true_iff]
        rw [Bool.toNat_true] at balance
        omega

/-- A chain to the left doubles a number and adds the bit that enters. -/
theorem Shift.MovesLeft.yields (moves : first.MovesLeft fill) (data : register ≠ .f)
    (nonempty : bytes ≠ []) (registers : Registers) :
    let x : Int := Binary.value bytes
    Yields (leftChain first register bytes registers) bytes.length
      ((2 * x + (fill (bytes.head nonempty) registers.flags.carry).toNat) % 256 ^ bytes.length)
      (decide (256 ^ bytes.length ≤ 2 * x)) := by
  have length := length_leftChain first register bytes registers
  have bound := Binary.value_lt (leftChain first register bytes registers).bytes
  rw [length] at bound
  obtain ⟨value, carry⟩ := doubled_of_balance (two_dvd_pow_length nonempty) bound
    (moves.balance data nonempty registers)
  refine ⟨length, ?_, ?_⟩
  · rw [value]
    norm_cast
  · rw [carry, decide_eq_decide]
    norm_cast

/-- A chain to the right halves a number below the bit that enters. -/
theorem Shift.MovesRight.yields (moves : first.MovesRight fill) (data : register ≠ .f)
    (nonempty : bytes ≠ []) (registers : Registers) :
    let x : Int := Binary.value bytes
    Yields (rightChain first register bytes registers) bytes.length
      ((x + (fill (bytes.getLast nonempty) registers.flags.carry).toNat * 256 ^ bytes.length) / 2)
      (decide (x % 2 = 1)) := by
  obtain ⟨value, carry⟩ := halved_of_balance (two_dvd_pow_length nonempty)
    (moves.balance data nonempty registers)
  refine ⟨length_rightChain first register bytes registers, ?_, ?_⟩
  · rw [value]
    norm_cast
  · rw [carry, decide_eq_decide]
    norm_cast

/-- The top bit of a number is that of its last byte. -/
theorem Binary.msb_getLast (nonempty : bytes ≠ []) :
    (bytes.getLast nonempty).msb = decide (256 ^ bytes.length ≤ 2 * value bytes) := by
  have split := List.dropLast_concat_getLast nonempty
  have number := value_concat bytes.dropLast (bytes.getLast nonempty)
  have length : bytes.length = bytes.dropLast.length + 1 := by
    simpa using (congrArg List.length split).symm
  have size : 256 ^ bytes.length = 256 * 256 ^ bytes.dropLast.length := by
    rw [length, pow_succ, Nat.mul_comm]
  have below := value_lt bytes.dropLast
  rw [split] at number
  rw [BitVec.msb_eq_decide, decide_eq_decide, number, size]
  constructor
  · intro large
    have := Nat.mul_le_mul_left (256 ^ bytes.dropLast.length) large
    omega
  · intro large
    by_contra small
    have := Nat.mul_le_mul_left (256 ^ bytes.dropLast.length)
      (Nat.le_of_lt_succ (Nat.lt_of_not_le small))
    omega

/-- Half of a number with its sign is half of it below the sign bit repeated. -/
theorem Binary.half_signed (nonempty : bytes ≠ []) :
    ((value bytes : Int) + (bytes.getLast nonempty).msb.toNat * 256 ^ bytes.length) / 2 =
      signed bytes / 2 % 256 ^ bytes.length := by
  have bound := value_lt bytes
  have size : ((256 ^ bytes.length : Nat) : Int) = 256 ^ bytes.length := by norm_cast
  obtain ⟨half, even⟩ := two_dvd_pow_length nonempty
  rw [msb_getLast nonempty, signed, ← size]
  by_cases large : 256 ^ bytes.length ≤ 2 * value bytes
  · rw [decide_eq_true large, if_neg (by omega), Bool.toNat_true, ← Int.add_emod_right,
      Int.emod_eq_of_lt (by omega) (by omega)]
    omega
  · rw [decide_eq_false large, if_pos (by omega), Bool.toNat_false,
      Int.emod_eq_of_lt (by omega) (by omega)]
    omega

/-! ## There and back -/

theorem eq_of_toNat_eq {first second : Bool} (same : first.toNat = second.toNat) :
    first = second := by
  cases first <;> cases second <;> first | rfl | cases same

theorem eq_of_doubled_eq {x y : Nat} {first second : Bool}
    (same : 2 * x + first.toNat = 2 * y + second.toNat) : x = y ∧ first = second := by
  have := first.toNat_le
  have := second.toNat_le
  exact ⟨by omega, eq_of_toNat_eq (by omega)⟩

theorem eq_of_extended_eq {x y size : Nat} {first second : Bool} (smallX : x < size)
    (smallY : y < size) (same : x + size * first.toNat = y + size * second.toNat) :
    x = y ∧ first = second := by
  have positive : 0 < size := Nat.zero_lt_of_lt smallX
  constructor
  · have lower := congrArg (· % size) same
    simpa only [Nat.add_mul_mod_self_left, Nat.mod_eq_of_lt smallX, Nat.mod_eq_of_lt smallY]
      using lower
  · have upper := congrArg (· / size) same
    simp only [Nat.add_mul_div_left _ _ positive, Nat.div_eq_of_lt smallX,
      Nat.div_eq_of_lt smallY, Nat.zero_add] at upper
    exact eq_of_toNat_eq upper

theorem ne_nil_of_length_eq {xs : List Byte} (nonempty : bytes ≠ [])
    (length : xs.length = bytes.length) : xs ≠ [] := by
  rw [← List.length_pos_iff, length]
  exact List.length_pos_iff.mpr nonempty

/-- A rotation to the right undoes one to the left. -/
theorem rightChain_leftChain (data : register ≠ .f) (nonempty : bytes ≠ [])
    (registers : Registers) :
    let turned := leftChain (.rotate .rl) register bytes registers
    let back := rightChain (.rotate .rr) register turned.bytes turned.registers
    back.bytes = bytes ∧ back.registers.flags.carry = registers.flags.carry := by
  intro turned back
  have length : turned.bytes.length = bytes.length :=
    length_leftChain _ register bytes registers
  have away : _ = 2 * Binary.value bytes + registers.flags.carry.toNat :=
    Shift.movesLeft_rl.balance data nonempty registers
  have home : 2 * Binary.value back.bytes + back.registers.flags.carry.toNat = _ :=
    Shift.movesRight_rr.balance data (ne_nil_of_length_eq nonempty length) turned.registers
  rw [length] at home
  obtain ⟨same, carry⟩ := eq_of_doubled_eq (home.trans away)
  refine ⟨Binary.eq_of_value_eq ?_ same, carry⟩
  exact (length_rightChain _ register turned.bytes turned.registers).trans length

/-- A rotation to the left undoes one to the right. -/
theorem leftChain_rightChain (data : register ≠ .f) (nonempty : bytes ≠ [])
    (registers : Registers) :
    let turned := rightChain (.rotate .rr) register bytes registers
    let back := leftChain (.rotate .rl) register turned.bytes turned.registers
    back.bytes = bytes ∧ back.registers.flags.carry = registers.flags.carry := by
  intro turned back
  have length : turned.bytes.length = bytes.length :=
    length_rightChain _ register bytes registers
  have lengthBack : back.bytes.length = bytes.length :=
    (length_leftChain _ register turned.bytes turned.registers).trans length
  have away : _ = Binary.value bytes + _ * registers.flags.carry.toNat :=
    Shift.movesRight_rr.balance data nonempty registers
  have home : Binary.value back.bytes + _ * back.registers.flags.carry.toNat = _ :=
    Shift.movesLeft_rl.balance data (ne_nil_of_length_eq nonempty length) turned.registers
  have bound := Binary.value_lt back.bytes
  rw [length] at home
  rw [lengthBack] at bound
  obtain ⟨same, carry⟩ :=
    eq_of_extended_eq bound (Binary.value_lt bytes) (home.trans away)
  exact ⟨Binary.eq_of_value_eq lengthBack same, carry⟩

/-- Chains of shifts double and halve numbers of any length in any register that holds data. The
first shift decides which bit enters: none, the sign or the carry. The two chains that take in the
carry undo each other, and leave the carry as it was. -/
theorem shift_chains (data : register ≠ .f) (nonempty : bytes ≠ []) (registers : Registers) :
    let count := bytes.length
    let x : Int := Binary.value bytes
    let c := registers.flags.carry.toNat
    let left := fun first => leftChain first register bytes registers
    let right := fun first => rightChain first register bytes registers
    let turnedLeft := left (.rotate .rl)
    let turnedRight := right (.rotate .rr)
    let back := rightChain (.rotate .rr) register turnedLeft.bytes turnedLeft.registers
    let forth := leftChain (.rotate .rl) register turnedRight.bytes turnedRight.registers
    Yields (left .sla) count (2 * x % 256 ^ count) (decide (256 ^ count ≤ 2 * x)) ∧
      Yields (right .srl) count (x / 2) (decide (x % 2 = 1)) ∧
      Yields (right .sra) count (Binary.signed bytes / 2 % 256 ^ count) (decide (x % 2 = 1)) ∧
      Yields turnedLeft count ((2 * x + c) % 256 ^ count) (decide (256 ^ count ≤ 2 * x)) ∧
      Yields turnedRight count ((x + c * 256 ^ count) / 2) (decide (x % 2 = 1)) ∧
      (back.bytes = bytes ∧ back.registers.flags.carry = registers.flags.carry) ∧
      (forth.bytes = bytes ∧ forth.registers.flags.carry = registers.flags.carry) := by
  intro count x c left right turnedLeft turnedRight back forth
  refine ⟨?_, ?_, ?_, ?_, ?_, ?_, ?_⟩
  · simpa using Shift.movesLeft_sla.yields data nonempty registers
  · simpa using Shift.movesRight_srl.yields data nonempty registers
  · rw [← Binary.half_signed nonempty]
    exact Shift.movesRight_sra.yields data nonempty registers
  · exact Shift.movesLeft_rl.yields data nonempty registers
  · exact Shift.movesRight_rr.yields data nonempty registers
  · exact rightChain_leftChain data nonempty registers
  · exact leftChain_rightChain data nonempty registers

/-- With the carry set, 0x81FF80 is doubled beyond its three bytes; halved, it keeps its sign or
loses it. -/
theorem shift_chains_three_bytes :
    let bytes : List Byte := [0x80, 0xFF, 0x81]
    let registers : Registers := { flags := { carry := true } }
    let left := fun first => leftChain first .h bytes registers
    let right := fun first => rightChain first .h bytes registers
    (left .sla).bytes = [0x00, 0xFF, 0x03] ∧ (right .srl).bytes = [0xC0, 0xFF, 0x40] ∧
      (right .sra).bytes = [0xC0, 0xFF, 0xC0] ∧
      Yields (left .sla) 3 0x03FF00 true ∧ Yields (right .srl) 3 0x40FFC0 false ∧
      Yields (right .sra) 3 0xC0FFC0 false ∧ Yields (left (.rotate .rl)) 3 0x03FF01 true ∧
      Yields (right (.rotate .rr)) 3 0xC0FFC0 false := by
  intro bytes registers left right
  have data : Register.h ≠ .f := by decide
  have nonempty : bytes ≠ [] := List.cons_ne_nil _ _
  have number : Binary.value bytes = 0x81FF80 := rfl
  have sign : Binary.signed bytes = -0x7E0080 := rfl
  have count : bytes.length = 3 := rfl
  obtain ⟨sla, srl, sra, rl, rr, -⟩ := shift_chains data nonempty registers
  have carried : registers.flags.carry.toNat = 1 := rfl
  rw [number, count] at sla srl sra rl rr
  rw [sign] at sra
  rw [carried] at rl rr
  exact ⟨by decide, by decide, by decide, sla, srl, sra, rl, rr⟩

end Sm83
