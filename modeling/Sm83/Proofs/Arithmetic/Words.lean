import Sm83.Proofs.Arithmetic.Bytes
import Sm83.Proofs.Chain.Basic

/-!
# Word arithmetic as numbers

What the additions into a pair compute, told without bits and told a second time through bytes:
the low bytes are added first and the high bytes with the carry of the low ones. Main statement:
both additions settle their number and their flags in any pair, and in a pair of two bytes they
agree with the byte operations.
-/

namespace Sm83

/-- Two words are added byte by byte. -/
theorem Carried.add_joinBytes (xHigh xLow yHigh yLow : Byte) :
    let low := add xLow yLow false
    let high := add xHigh yHigh low.carry
    add (joinBytes xHigh xLow) (joinBytes yHigh yLow) false =
      ⟨joinBytes high.value low.value, high.halfCarry, high.carry⟩ := by
  intro low high
  have lowSum : low.value.toNat + 256 * low.carry.toNat = xLow.toNat + yLow.toNat :=
    toNat_add_add_carry xLow yLow false
  have highSum : high.value.toNat + 256 * high.carry.toNat =
      xHigh.toNat + yHigh.toNat + low.carry.toNat :=
    toNat_add_add_carry xHigh yHigh low.carry
  have lowSmall := low.value.isLt
  have highSmall := high.value.isLt
  have value : (add (joinBytes xHigh xLow) (joinBytes yHigh yLow) false).value =
      joinBytes high.value low.value := by
    apply BitVec.eq_of_toNat_eq
    rw [toNat_add]
    simp only [toNat_joinBytes, Bool.toNat_false, Nat.reducePow]
    omega
  have halfCarry : (add (joinBytes xHigh xLow) (joinBytes yHigh yLow) false).halfCarry =
      high.halfCarry := by
    rw [halfCarry_add, halfCarry_add, decide_eq_decide]
    simp only [toNat_joinBytes, Bool.toNat_false, Nat.reducePow, Nat.reduceSub]
    omega
  have carry : (add (joinBytes xHigh xLow) (joinBytes yHigh yLow) false).carry =
      high.carry := by
    rw [carry_add, carry_add, decide_eq_decide]
    simp only [toNat_joinBytes, Bool.toNat_false, Nat.reducePow]
    omega
  rw [← value, ← halfCarry, ← carry]

/-! ## The byte operations -/

namespace Registers

variable (registers : Registers)

/-- Working on a lower half leaves the upper halves alone. -/
theorem get_high_combine_low (op : ByteOp) (source destination : Pair) (operand : Byte) :
    (registers.combine op destination.low operand).get source.high =
      registers.get source.high := by
  rw [get_combine, if_neg source.high_ne_f,
    if_neg fun written => source.high_ne_low destination written.1]

/-- Adds two bytes into the halves of a pair, the low one first. -/
def addBytes (destination : Pair) (high low : Byte) : Registers :=
  (registers.combine .add destination.low low).combine .adc destination.high high

end Registers

/-! ## What the additions settle -/

/-- A pair comes to hold a number. Of the pair that holds the flags only the upper half does. -/
structure SettlesWord (before : Session) (after : Response) (pair : Pair) (number : Nat)
    (flags : Flags) : Prop extends Settles before after [pair.high, pair.low] flags where
  stored : pair ≠ .af → (after.session.cpu.registers.getPair pair).toNat = number
  high : (after.session.cpu.registers.get pair.high).toNat = number / 256

theorem SettlesWord.of_setPair {session : Session} {update : Update} {pair : Pair} {word : Word}
    {left flags : Flags} {number : Nat}
    (applied : update.apply session.cpu.registers =
      { session.cpu.registers.setPair pair word with flags := left })
    (value : word.toNat = number) (same : left = flags) :
    SettlesWord session (session.perform (.update update)).value pair number flags where
  toSettles := .of_withFlags applied same fun _ free => Registers.get_setPair_of_ne _ free word
  stored data := by
    have found : (update.apply session.cpu.registers).getPair pair = word := by
      rw [applied, Registers.getPair_withFlags _ data, Registers.getPair_setPair_of_ne_af _ data]
    exact (congrArg BitVec.toNat found).trans value
  high := by
    have found : (update.apply session.cpu.registers).get pair.high = highByte word := by
      rw [applied, Registers.get_withFlags_of_ne_f _ pair.high_ne_f, Registers.get_high_setPair]
    exact (congrArg BitVec.toNat found).trans (by rw [toNat_highByte, value])

/-- A pair holds a sum, and the flags tell its carries. -/
structure HoldsSum (registers : Registers) (pair : Pair) (sum : Carried 16) : Prop where
  word : registers.getPair pair = sum.value
  halfCarry : registers.flags.halfCarry = sum.halfCarry
  carry : registers.flags.carry = sum.carry

/-- The same sum in a pair, with the same carries out of it. -/
structure SameSum (pair : Pair) (first second : Registers) : Prop where
  word : first.getPair pair = second.getPair pair
  halfCarry : first.flags.halfCarry = second.flags.halfCarry
  carry : first.flags.carry = second.flags.carry

theorem HoldsSum.sameSum {first second : Registers} {pair : Pair} {sum : Carried 16}
    (holds : HoldsSum first pair sum) (alike : HoldsSum second pair sum) :
    SameSum pair first second :=
  ⟨holds.word.trans alike.word.symm, holds.halfCarry.trans alike.halfCarry.symm,
    holds.carry.trans alike.carry.symm⟩

theorem holdsSum_setPair (registers : Registers) {pair : Pair} (data : pair ≠ .af)
    (sum : Carried 16) (zero : Bool) :
    HoldsSum { registers.setPair pair sum.value with flags := { sum.flags false with zero } }
      pair sum where
  word := by
    rw [Registers.getPair_withFlags _ data, Registers.getPair_setPair_of_ne_af _ data]
  halfCarry := rfl
  carry := rfl

/-- The carry of the low bytes reaches the high ones, which nothing else has touched. -/
theorem holdsSum_addBytes (registers : Registers) {pair : Pair} (data : pair ≠ .af)
    (high low : Byte) :
    HoldsSum (registers.addBytes pair high low) pair
      (Carried.add (registers.getPair pair) (joinBytes high low) false) := by
  let lower := registers.combine .add pair.low low
  have untouched : lower.get pair.high = registers.get pair.high :=
    registers.get_high_combine_low .add pair pair low
  have lowByte : lower.get pair.low = (Carried.add (registers.get pair.low) low false).value := by
    rw [Registers.get_combine, if_neg (Pair.low_ne_f data), if_pos ⟨rfl, rfl⟩]
    rfl
  have lowKept : (registers.addBytes pair high low).get pair.low = lower.get pair.low := by
    rw [Registers.addBytes, Registers.get_combine, if_neg (Pair.low_ne_f data),
      if_neg fun written => pair.high_ne_low pair written.1.symm]
  have highByte : (registers.addBytes pair high low).get pair.high =
      (Carried.add (lower.get pair.high) high lower.flags.carry).value := by
    rw [Registers.addBytes, Registers.get_combine, if_neg pair.high_ne_f, if_pos ⟨rfl, rfl⟩]
    rfl
  have sum := Carried.add_joinBytes (registers.get pair.high) (registers.get pair.low) high low
  rw [Registers.getPair, sum, ← untouched]
  refine ⟨?_, rfl, rfl⟩
  rw [Registers.getPair, highByte, lowKept, lowByte]
  rfl

/-- The additions into a pair compute what they should, and do it as the byte operations do. -/
theorem word_additions_settle (session : Session) (source : Pair) (register : Register) :
    let perform (update : Update) := (session.perform (.update update)).value
    let registers := session.cpu.registers
    let zero := registers.flags.zero
    let s := (registers.getPair source).toNat
    let t := (registers.get register).toNat
    (∀ destination : Pair,
      let d := (registers.getPair destination).toNat
      SettlesWord session (perform (.addPair source destination)) destination
          ((d + s) % 65536) { sumFlags 4096 65536 d s 0 with zero } ∧
        SettlesWord session (perform (.addRegister register destination)) destination
          ((d + t) % 65536) (sumFlags 4096 65536 d t 0)) ∧
    ∀ destination : DataPair,
      SameSum destination (perform (.addPair source destination)).session.cpu.registers
          (Update.applyAll
            [ .combine .add source.low destination.low,
              .combine .adc source.high destination.high ] registers) ∧
        SameSum destination (perform (.addRegister register destination)).session.cpu.registers
          (registers.addBytes destination 0 (registers.get register)) := by
  intro perform registers zero s t
  have extended : (joinBytes 0 (registers.get register)).toNat = t := by
    rw [toNat_joinBytes]
    simp [t]
  refine ⟨fun destination => ⟨?pair, ?register⟩, fun destination => ⟨?pairBytes, ?registerBytes⟩⟩
  case pair =>
    exact .of_setPair rfl (Carried.toNat_add _ _ false)
      (congrArg (fun flags : Flags => { flags with zero }) (Carried.flags_add _ _ false))
  case register =>
    rw [← extended]
    exact .of_setPair rfl (Carried.toNat_add _ _ false) (Carried.flags_add _ _ false)
  case pairBytes =>
    have data := destination.toPair_ne_af
    have chained : registers.addBytes destination (registers.get source.high)
        (registers.get source.low) = Update.applyAll
          [ .combine .add source.low destination.low,
            .combine .adc source.high destination.high ] registers := by
      rw [← DataPair.low_toPair, ← DataPair.high_toPair, Registers.addBytes,
        ← registers.get_high_combine_low .add source destination (registers.get source.low)]
      rfl
    rw [← chained]
    exact (holdsSum_setPair registers data _ _).sameSum (holdsSum_addBytes registers data _ _)
  case registerBytes =>
    have data := destination.toPair_ne_af
    exact (holdsSum_setPair registers data _ _).sameSum (holdsSum_addBytes registers data _ _)

end Sm83
