import Sm83.Proofs.Requests
import Mathlib.Data.Nat.ModEq

/-!
# Shifts repeated

What a shift comes to that is carried out many times on one register. Rotations go round after eight
places, and after nine if they take in the carry; the other shifts multiply and divide by a power of
two. Main statement: for every kind of shift the register, the carry and the other flags after any
number of times, and that rotations of A alone end alike but for the zero flag.
-/

namespace Sm83

/-! ## Rotations of any width -/

section Rotations

variable {width : Nat} (bits : BitVec width)

theorem getLsbD_rotateRight_eq (count : Nat) {index : Nat} (inside : index < width) :
    (bits.rotateRight count).getLsbD index = bits.getLsbD ((index + count) % width) := by
  have here : index % width = index := Nat.mod_eq_of_lt inside
  have small : count % width < width := Nat.mod_lt _ (Nat.zero_lt_of_lt inside)
  rw [BitVec.getLsbD_rotateRight, decide_eq_true inside, Bool.true_and]
  by_cases stays : index + count % width < width
  · have target : (index + count) % width = index + count % width := by
      rw [Nat.add_mod_of_add_mod_lt (by rwa [here]), here]
    rw [target, decide_eq_true (by omega), cond_true, Nat.add_comm]
  · have target : (index + count) % width + width = index + count % width := by
      rw [Nat.add_mod_add_of_le_add_mod (by rw [here]; omega), here]
    rw [decide_eq_false (by omega), cond_false]
    congr 1
    omega

theorem rotateRight_rotateRight (first second : Nat) :
    (bits.rotateRight first).rotateRight second = bits.rotateRight (first + second) := by
  apply BitVec.eq_of_getLsbD_eq
  intro index inside
  have positive : 0 < width := Nat.zero_lt_of_lt inside
  rw [getLsbD_rotateRight_eq _ _ inside, getLsbD_rotateRight_eq _ _ (Nat.mod_lt _ positive),
    getLsbD_rotateRight_eq _ _ inside, Nat.mod_add_mod, Nat.add_assoc, Nat.add_comm second]

/-- Whole turns change nothing. -/
theorem rotateRight_of_dvd {count : Nat} (whole : 0 < width → width ∣ count) :
    bits.rotateRight count = bits := by
  apply BitVec.eq_of_getLsbD_eq
  intro index inside
  obtain ⟨turns, rfl⟩ := whole (Nat.zero_lt_of_lt inside)
  rw [getLsbD_rotateRight_eq _ _ inside, Nat.add_mul_mod_self_left, Nat.mod_eq_of_lt inside]

/-- A rotation to the left is the rest of a turn to the right. -/
theorem rotateLeft_eq_rotateRight (count : Nat) :
    bits.rotateLeft count = bits.rotateRight (width - count % width) := by
  apply BitVec.eq_of_getLsbD_eq
  intro index inside
  have small : count % width < width := Nat.mod_lt _ (Nat.zero_lt_of_lt inside)
  rw [getLsbD_rotateRight_eq _ _ inside, BitVec.getLsbD_rotateLeft, decide_eq_true inside,
    Bool.true_and]
  by_cases wraps : index < count % width
  · have target : (index + (width - count % width)) % width = width - count % width + index := by
      rw [Nat.add_comm]
      exact Nat.mod_eq_of_lt (by omega)
    rw [target, decide_eq_true wraps, cond_true]
  · have around : index + (width - count % width) = index - count % width + width := by omega
    have target : (index + (width - count % width)) % width = index - count % width := by
      rw [around, Nat.add_mod_right]
      exact Nat.mod_eq_of_lt (by omega)
    rw [target, decide_eq_false wraps, cond_false]

/-- A turn and the rest of a turn to the other side are whole turns together. -/
theorem dvd_sub_mod_add (positive : 0 < width) (count : Nat) :
    width ∣ width - count % width + count := by
  have small : count % width < width := Nat.mod_lt _ positive
  have split : width - count % width + count = width * (count / width + 1) := by
    have := Nat.div_add_mod count width
    rw [Nat.mul_succ]
    omega
  exact Dvd.intro _ split.symm

theorem rotateRight_rotateLeft (count : Nat) :
    (bits.rotateLeft count).rotateRight count = bits := by
  rw [rotateLeft_eq_rotateRight, rotateRight_rotateRight]
  exact rotateRight_of_dvd bits fun positive => dvd_sub_mod_add positive count

theorem rotateLeft_rotateRight (count : Nat) :
    (bits.rotateRight count).rotateLeft count = bits := by
  rw [rotateLeft_eq_rotateRight, rotateRight_rotateRight, Nat.add_comm]
  exact rotateRight_of_dvd bits fun positive => dvd_sub_mod_add positive count

theorem rotateLeft_rotateLeft (first second : Nat) :
    (bits.rotateLeft first).rotateLeft second = bits.rotateLeft (first + second) := by
  -- Turned back to the right the two lead to the start, as their sum does.
  have back : ((bits.rotateLeft first).rotateLeft second).rotateRight (second + first) = bits := by
    rw [← rotateRight_rotateRight, rotateRight_rotateLeft, rotateRight_rotateLeft]
  rw [← rotateLeft_rotateRight ((bits.rotateLeft first).rotateLeft second) (second + first), back,
    Nat.add_comm]

theorem rotateRight_zero : bits.rotateRight 0 = bits :=
  rotateRight_of_dvd bits fun _ => Nat.dvd_zero width

theorem rotateLeft_zero : bits.rotateLeft 0 = bits := by
  rw [← rotateRight_zero (bits.rotateLeft 0), rotateRight_rotateLeft]

end Rotations

/-! ## Shifts of one byte -/

/-- The byte that was moved, below the bit that left it. -/
def Moved.nine (moved : Moved) : BitVec 9 := BitVec.cons moved.out moved.value

theorem Moved.toNat_nine (moved : Moved) :
    moved.nine.toNat = 256 * moved.out.toNat + moved.value.toNat := by
  rw [nine, BitVec.toNat_cons', Nat.shiftLeft_eq, Nat.mul_comm]

theorem Moved.eq_of_nine_eq {first second : Moved} (same : first.nine = second.nine) :
    first = second := by
  have value : first.value = second.value := by
    simpa [nine] using congrArg (BitVec.setWidth 8) same
  have out : first.out = second.out := by
    simpa [nine] using congrArg BitVec.msb same
  cases first
  cases second
  congr

namespace Shift

/-- The next shift takes in the bit that left the byte before. -/
def again (kind : Shift) (moved : Moved) : Moved := kind.eval moved.value moved.out

/-- A number of shifts. -/
def times (kind : Shift) : Nat → Moved → Moved
  | 0, moved => moved
  | count + 1, moved => kind.again (kind.times count moved)

variable {α : Type} {kind : Shift}

/-- What one shift adds to a total, a number of shifts add as often. -/
theorem view_times (view : Moved → α) (total : α → Nat → α) (zero : ∀ x, total x 0 = x)
    (succ : ∀ x count, total x (count + 1) = total (total x count) 1)
    (one : ∀ moved, view (kind.again moved) = total (view moved) 1) (count : Nat) (start : Moved) :
    view (kind.times count start) = total (view start) count := by
  induction count with
  | zero => exact (zero _).symm
  | succ count ih => rw [times, one, ih, ← succ]

variable (count : Nat) (start : Moved)

theorem value_times_rlc :
    (times (.rotate .rlc) count start).value = start.value.rotateLeft count := by
  apply view_times Moved.value BitVec.rotateLeft rotateLeft_zero
  · exact fun x count => (rotateLeft_rotateLeft x count 1).symm
  · exact fun _ => rfl

theorem value_times_rrc :
    (times (.rotate .rrc) count start).value = start.value.rotateRight count := by
  apply view_times Moved.value BitVec.rotateRight rotateRight_zero
  · exact fun x count => (rotateRight_rotateRight x count 1).symm
  · exact fun _ => rfl

theorem nine_again_rl (moved : Moved) :
    (again (.rotate .rl) moved).nine = moved.nine.rotateLeft 1 := by
  obtain ⟨value, out⟩ := moved
  revert value out
  decide +kernel

theorem nine_again_rr (moved : Moved) :
    (again (.rotate .rr) moved).nine = moved.nine.rotateRight 1 := by
  obtain ⟨value, out⟩ := moved
  revert value out
  decide +kernel

theorem nine_times_rl :
    (times (.rotate .rl) count start).nine = start.nine.rotateLeft count := by
  apply view_times Moved.nine BitVec.rotateLeft rotateLeft_zero
  · exact fun x count => (rotateLeft_rotateLeft x count 1).symm
  · exact nine_again_rl

theorem nine_times_rr :
    (times (.rotate .rr) count start).nine = start.nine.rotateRight count := by
  apply view_times Moved.nine BitVec.rotateRight rotateRight_zero
  · exact fun x count => (rotateRight_rotateRight x count 1).symm
  · exact nine_again_rr

theorem value_times_sla : (times .sla count start).value = start.value <<< count := by
  apply view_times Moved.value (fun x count => x <<< count) BitVec.shiftLeft_zero
  · exact fun x count => BitVec.shiftLeft_add x count 1
  · exact fun _ => rfl

theorem value_times_srl : (times .srl count start).value = start.value >>> count := by
  apply view_times Moved.value (fun x count => x >>> count) BitVec.ushiftRight_zero
  · exact fun x count => BitVec.shiftRight_add x count 1
  · exact fun _ => rfl

theorem value_times_sra : (times .sra count start).value = start.value.sshiftRight count := by
  apply view_times Moved.value BitVec.sshiftRight fun _ => BitVec.sshiftRight_zero
  · exact fun _ _ => BitVec.sshiftRight_add
  · exact fun _ => rfl

/-- Halves that were exchanged twice are where they were. -/
theorem value_times_swap :
    (times .swap count start).value =
      if count % 2 = 0 then start.value else start.value.rotateLeft 4 := by
  have total : (times .swap count start).value = start.value.rotateLeft (4 * count) := by
    apply view_times Moved.value (fun x count => x.rotateLeft (4 * count)) rotateLeft_zero
    · intro x count
      rw [rotateLeft_rotateLeft, Nat.mul_succ]
    · exact fun _ => rfl
  rw [total, ← BitVec.rotateLeft_mod_eq_rotateLeft]
  by_cases even : count % 2 = 0
  · have whole : 4 * count % 8 = 0 := by omega
    rw [if_pos even, whole, rotateLeft_zero]
  · have half : 4 * count % 8 = 4 := by omega
    rw [if_neg even, half]

/-! ### The bit that left last -/

theorem out_times_rlc (before : Nat) :
    let moved := times (.rotate .rlc) (before + 1) start
    moved.out = moved.value.getLsbD 0 := by
  have left (byte : Byte) : byte.getLsbD 7 = (byte.rotateLeft 1).getLsbD 0 := by simp
  exact left _

theorem out_times_rrc (before : Nat) :
    let moved := times (.rotate .rrc) (before + 1) start
    moved.out = moved.value.getLsbD 7 := by
  have left (byte : Byte) : byte.getLsbD 0 = (byte.rotateRight 1).getLsbD 7 := by simp
  exact left _

theorem out_times_sla (before : Nat) :
    (times .sla (before + 1) start).out =
      (decide (before + 1 ≤ 8) && start.value.getLsbD (8 - (before + 1))) := by
  have left : (times .sla (before + 1) start).out = (start.value <<< before).getLsbD 7 :=
    congrArg (·.getLsbD 7) (value_times_sla before start)
  rw [left, BitVec.getLsbD_shiftLeft, ← decide_not]
  by_cases fits : before + 1 ≤ 8
  · have place : 8 - (before + 1) = 7 - before := by omega
    rw [decide_eq_true fits, decide_eq_true (show ¬7 < before by omega), place]
    rfl
  · rw [decide_eq_false fits, decide_eq_false (show ¬¬7 < before by omega)]
    rfl

theorem out_times_srl (before : Nat) :
    (times .srl (before + 1) start).out =
      (decide (before + 1 ≤ 8) && start.value.getLsbD before) := by
  have left : (times .srl (before + 1) start).out = (start.value >>> before).getLsbD 0 :=
    congrArg (·.getLsbD 0) (value_times_srl before start)
  rw [left, BitVec.getLsbD_ushiftRight, Nat.add_zero]
  by_cases fits : before + 1 ≤ 8
  · rw [decide_eq_true fits, Bool.true_and]
  · rw [decide_eq_false fits, Bool.false_and]
    exact BitVec.getLsbD_of_ge _ _ (by omega)

/-- The sign never runs out. -/
theorem out_times_sra (before : Nat) :
    (times .sra (before + 1) start).out = start.value.getLsbD (min before 7) := by
  have left : (times .sra (before + 1) start).out = (start.value.sshiftRight before).getLsbD 0 :=
    congrArg (·.getLsbD 0) (value_times_sra before start)
  rw [left, BitVec.getLsbD_sshiftRight, Nat.add_zero]
  by_cases inside : before < 8
  · rw [if_pos inside, Nat.min_eq_left (by omega)]
    rfl
  · rw [if_neg inside, Nat.min_eq_right (by omega)]
    rfl

/-! ### Numbers -/

theorem toNat_times_sla :
    (times .sla count start).value.toNat = start.value.toNat * 2 ^ count % 256 := by
  rw [value_times_sla, BitVec.toNat_shiftLeft, Nat.shiftLeft_eq]

theorem toNat_times_srl :
    (times .srl count start).value.toNat = start.value.toNat / 2 ^ count := by
  rw [value_times_srl, BitVec.toNat_ushiftRight, Nat.shiftRight_eq_div_pow]

/-- A signed number is halved toward the lower one. -/
theorem toNat_times_sra :
    ((times .sra count start).value.toNat : Int) = start.value.toInt / 2 ^ count % 256 := by
  have signed : (start.value.sshiftRight count).toInt = start.value.toInt / 2 ^ count := by
    rw [BitVec.toInt_sshiftRight, Int.shiftRight_eq_div_pow]
    norm_cast
  have small : ((start.value.sshiftRight count).toNat : Int) < 256 :=
    Int.ofNat_lt.mpr (start.value.sshiftRight count).isLt
  rw [value_times_sra, ← signed, BitVec.toInt_eq_toNat_bmod]
  exact (Int.bmod_emod.trans (Int.emod_eq_of_lt (Int.natCast_nonneg _) small)).symm

end Shift

/-! ## Shifts of a register -/

/-- The byte of a register, and the carry. -/
def Registers.held (registers : Registers) (register : Register) : Moved :=
  ⟨registers.get register, registers.flags.carry⟩

/-- An update that shifts a register, and leaves in the zero flag what some test tells of the byte
that was moved. -/
def Update.Shifts (update : Update) (kind : Shift) (register : Register) (zero : Byte → Bool) :
    Prop :=
  ∀ registers : Registers,
    let moved := kind.again (registers.held register)
    update.apply registers =
      registers.setWithFlags register moved.value { zero := zero moved.value, carry := moved.out }

theorem Update.shifts_shift (kind : Shift) (register : Register) :
    (Update.shift kind register).Shifts kind register (· == 0) :=
  fun _ => rfl

/-- The rotation of A tells nothing of the byte. -/
theorem Update.shifts_rotateA (rotation : Rotation) :
    (Update.rotateA rotation).Shifts (.rotate rotation) .a fun _ => false :=
  fun _ => rfl

/-- What a number of shifts leave: the byte and the carry of as many moves, flags that tell of
these two, and all else as it was. -/
structure ShiftedTimes (before after : Session) (kind : Shift) (register : Register)
    (zero : Byte → Bool) (count : Nat) : Prop where
  held : after.cpu.registers.held register = kind.times count (before.cpu.registers.held register)
  flags : 0 < count → after.cpu.registers.flags =
    { zero := zero (after.cpu.registers.held register).value
      carry := (after.cpu.registers.held register).out }
  others : ∀ other, other ≠ register → other ≠ .f →
    after.cpu.registers.get other = before.cpu.registers.get other
  pc : after.cpu.pc = before.cpu.pc

namespace Session

/-- The session after an update was carried out a number of times. -/
def repeated (session : Session) (update : Update) (count : Nat) : Session :=
  session.performAll (List.replicate count (.update update))

theorem repeated_succ (session : Session) (update : Update) (count : Nat) :
    let before := session.repeated update count
    session.repeated update (count + 1) =
      before.setRegisters (update.apply before.cpu.registers) := by
  intro before
  rw [repeated, List.replicate_succ', performAll, List.foldl_append]
  rfl

end Session

variable {update : Update} {kind : Shift} {register : Register} {zero : Byte → Bool}

theorem Update.Shifts.shiftedTimes (shifts : update.Shifts kind register zero)
    (data : register ≠ .f) (session : Session) (count : Nat) :
    ShiftedTimes session (session.repeated update count) kind register zero count := by
  induction count with
  | zero =>
      exact ⟨rfl, fun positive => absurd positive (Nat.lt_irrefl 0), fun _ _ _ => rfl, rfl⟩
  | succ count ih =>
      let before := (session.repeated update count).cpu.registers
      let moved := kind.again (before.held register)
      have ends : (session.repeated update (count + 1)).cpu.registers =
          before.setWithFlags register moved.value
            { zero := zero moved.value, carry := moved.out } := by
        rw [Session.repeated_succ]
        exact shifts before
      have held : (session.repeated update (count + 1)).cpu.registers.held register = moved := by
        rw [Registers.held, ends, Registers.get_setWithFlags, if_neg data, if_pos rfl]
        rfl
      constructor
      case held => rw [held, Shift.times, ← ih.held]
      case flags =>
        intro _
        rw [held, ends]
        rfl
      case others =>
        intro other different notFlags
        rw [ends, Registers.get_setWithFlags, if_neg notFlags, if_neg different]
        exact ih.others other different notFlags
      case pc =>
        rw [Session.repeated_succ]
        exact ih.pc

/-- Whatever is shifted, and however often: the register, the carry and the other flags after it. Of
a rotation through the carry the nine bits go round, and the opposite rotation brings them back. The
rotations of A end like those of any register, but with the zero flag cleared. -/
theorem shifts_repeat (data : register ≠ .f) (session : Session) (count : Nat) :
    let start := session.cpu.registers.held register
    let after := fun kind => session.repeated (.shift kind register) count
    let held := fun kind => (after kind).cpu.registers.held register
    let back := fun kind opposite =>
      ((after kind).repeated (.shift opposite register) count).cpu.registers.held register
    let v := start.value
    ((held (.rotate .rlc)).value = v.rotateLeft (count % 8) ∧
        (held (.rotate .rrc)).value = v.rotateRight (count % 8)) ∧
      (start.nine.toNat = 256 * start.out.toNat + v.toNat ∧
        (held (.rotate .rl)).nine = start.nine.rotateLeft (count % 9) ∧
        (held (.rotate .rr)).nine = start.nine.rotateRight (count % 9) ∧
        back (.rotate .rl) (.rotate .rr) = start ∧ back (.rotate .rr) (.rotate .rl) = start) ∧
      ((held .sla).value.toNat = v.toNat * 2 ^ count % 256 ∧
        (held .srl).value.toNat = v.toNat / 2 ^ count ∧
        ((held .sra).value.toNat : Int) = v.toInt / 2 ^ count % 256 ∧
        (held .swap).value = if count % 2 = 0 then v else v.rotateLeft 4) ∧
      (0 < count →
        ((held (.rotate .rlc)).out = (held (.rotate .rlc)).value.getLsbD 0 ∧
            (held (.rotate .rrc)).out = (held (.rotate .rrc)).value.getLsbD 7 ∧
            (held .sla).out = (decide (count ≤ 8) && v.getLsbD (8 - count)) ∧
            (held .srl).out = (decide (count ≤ 8) && v.getLsbD (count - 1)) ∧
            (held .sra).out = v.getLsbD (min (count - 1) 7) ∧ (held .swap).out = false) ∧
          ∀ kind, (after kind).cpu.registers.flags =
            { zero := (held kind).value == 0, carry := (held kind).out }) ∧
      (∀ kind, (after kind).cpu.pc = session.cpu.pc ∧
        ∀ other, other ≠ register → other ≠ .f →
          (after kind).cpu.registers.get other = session.cpu.registers.get other) ∧
      ∀ rotation,
        let alone := (session.repeated (.rotateA rotation) count).cpu
        let shifted := (session.repeated (.shift (.rotate rotation) .a) count).cpu
        alone.registers.held .a = shifted.registers.held .a ∧
          (0 < count → alone.registers.flags = { carry := shifted.registers.flags.carry }) ∧
          (∀ other, other ≠ .f → alone.registers.get other = shifted.registers.get other) ∧
          alone.pc = shifted.pc := by
  intro start after held back v
  have shifts (kind : Shift) : ShiftedTimes session (after kind) kind register (· == 0) count :=
    (Update.shifts_shift kind register).shiftedTimes data session count
  have heldEq (kind : Shift) : held kind = kind.times count start := (shifts kind).held
  have backEq (kind opposite : Shift) : back kind opposite = opposite.times count (held kind) :=
    ((Update.shifts_shift opposite register).shiftedTimes data (after kind) count).held
  refine ⟨⟨?rlc, ?rrc⟩, ⟨start.toNat_nine, ?rl, ?rr, ?leftRight, ?rightLeft⟩,
    ⟨?sla, ?srl, ?sra, ?swap⟩, ?flags, fun kind => ⟨(shifts kind).pc, (shifts kind).others⟩,
    ?alone⟩
  case rlc => rw [heldEq, Shift.value_times_rlc, BitVec.rotateLeft_mod_eq_rotateLeft]
  case rrc => rw [heldEq, Shift.value_times_rrc, BitVec.rotateRight_mod_eq_rotateRight]
  case rl => rw [heldEq, Shift.nine_times_rl, BitVec.rotateLeft_mod_eq_rotateLeft]
  case rr => rw [heldEq, Shift.nine_times_rr, BitVec.rotateRight_mod_eq_rotateRight]
  case leftRight =>
    apply Moved.eq_of_nine_eq
    rw [backEq, heldEq, Shift.nine_times_rr, Shift.nine_times_rl, rotateRight_rotateLeft]
  case rightLeft =>
    apply Moved.eq_of_nine_eq
    rw [backEq, heldEq, Shift.nine_times_rl, Shift.nine_times_rr, rotateLeft_rotateRight]
  case sla => rw [heldEq, Shift.toNat_times_sla]
  case srl => rw [heldEq, Shift.toNat_times_srl]
  case sra => rw [heldEq, Shift.toNat_times_sra]
  case swap => rw [heldEq, Shift.value_times_swap]
  case flags =>
    intro positive
    refine ⟨?_, fun kind => (shifts kind).flags positive⟩
    obtain ⟨before, rfl⟩ := Nat.exists_eq_succ_of_ne_zero positive.ne'
    simp only [heldEq]
    exact ⟨Shift.out_times_rlc start before, Shift.out_times_rrc start before,
      Shift.out_times_sla start before, Shift.out_times_srl start before,
      Shift.out_times_sra start before, rfl⟩
  case alone =>
    intro rotation alone shifted
    have byShift :=
      (Update.shifts_shift (.rotate rotation) .a).shiftedTimes (by decide) session count
    have byRotation := (Update.shifts_rotateA rotation).shiftedTimes (by decide) session count
    have same : alone.registers.held .a = shifted.registers.held .a :=
      byRotation.held.trans byShift.held.symm
    refine ⟨same, ?_, ?_, byRotation.pc.trans byShift.pc.symm⟩
    · intro positive
      rw [byRotation.flags positive]
      exact congrArg (fun moved : Moved => ({ carry := moved.out } : Flags)) same
    · intro other notFlags
      by_cases isA : other = .a
      · rw [isA]
        exact congrArg Moved.value same
      · exact (byRotation.others other isA notFlags).trans
          (byShift.others other isA notFlags).symm

/-- Eleven times are three places more than a whole turn of eight bits, and two more than one of
nine. -/
theorem shifts_repeat_eleven_times :
    let registers : Registers := { b := 0x96, flags := { carry := true } }
    let session : Session := { cpu := { registers } }
    let after := fun kind => (session.repeated (.shift kind .b) 11).cpu.registers
    let held := fun kind => (after kind).held .b
    Register.b ≠ .f ∧ (held (.rotate .rlc)).value = 0xB4 ∧ (held (.rotate .rrc)).value = 0xD2 ∧
      (held (.rotate .rl)).nine = 0x05B ∧ (held .sla).out = false ∧
      ((held .sra).value.toNat : Int) = 0xFF ∧ (held .sra).out = true ∧
      (after .srl).flags = { zero := (held .srl).value == 0, carry := (held .srl).out } := by
  intro registers session after held
  have data : Register.b ≠ .f := by decide
  obtain ⟨⟨rlc, rrc⟩, ⟨-, rl, -⟩, ⟨-, -, sra, -⟩, last, -⟩ := shifts_repeat data session 11
  obtain ⟨⟨-, -, slaOut, -, sraOut, -⟩, flags⟩ := last (by decide)
  exact ⟨data, rlc.trans (by decide), rrc.trans (by decide), rl.trans (by decide),
    slaOut.trans (by decide), sra.trans (by decide), sraOut.trans (by decide), flags .srl⟩

end Sm83
