import Sm83.Proofs.Requests
import Mathlib.Data.Int.ModEq
import Mathlib.Tactic.Ring

/-!
# Pairs counted up and down

A pair of two bytes counts like a number modulo 65536. The pair that holds the flags cannot: it
keeps multiples of sixteen only, so that counting up is lost and counting down goes to the multiple
below. Main statement: what any mix of counts leaves in a pair, and that nothing else changes.
-/

namespace Sm83

/-- A step of a pair, up or down. -/
inductive Count where
  | up | down
  deriving DecidableEq, Repr

namespace Count

/-- The update that counts a pair. -/
def update (pair : Pair) : Count → Update
  | up => .incrementPair pair
  | down => .decrementPair pair

/-- What a count adds to the word of a pair. -/
def change (pair : Pair) : Count → Int
  | up => if pair = .af then 0 else 1
  | down => if pair = .af then -16 else -1

/-- What a mix of counts adds to the word of a pair. -/
def total (pair : Pair) (counts : List Count) : Int :=
  counts.count up * up.change pair + counts.count down * down.change pair

theorem total_cons (pair : Pair) (count : Count) (rest : List Count) :
    total pair (count :: rest) = count.change pair + total pair rest := by
  cases count with
  | up =>
      rw [total, total, List.count_cons_self, List.count_cons_of_ne (by decide)]
      push_cast
      ring
  | down =>
      rw [total, total, List.count_cons_self, List.count_cons_of_ne (by decide)]
      push_cast
      ring

/-- The requests that count a pair. -/
def requests (pair : Pair) (counts : List Count) : List Command :=
  counts.map fun count => .update (count.update pair)

end Count

/-! ## One count -/

namespace Registers

variable (registers : Registers)

/-- The pair that holds the flags keeps the multiple of sixteen below a word. -/
theorem toNat_getPair_setPair_af (word : Word) :
    ((registers.setPair .af word).getPair .af).toNat = 16 * (word.toNat / 16) := by
  have low : ((Pair.low .af).keep (lowByte word)).toNat = 16 * ((lowByte word).toNat / 16) :=
    Register.toNat_keep_f (lowByte word)
  rw [getPair_setPair, toNat_joinBytes, low, toNat_highByte, toNat_lowByte]
  omega

theorem toNat_get_f : (registers.get .f).toNat = (registers.getPair .af).toNat % 256 := by
  rw [← toNat_lowByte, getPair, lowByte_joinBytes]
  rfl

theorem sixteen_dvd_getPair_af : 16 ∣ (registers.getPair .af).toNat := by
  have low : (registers.get (Pair.low .af)).toNat = _ :=
    (congrArg BitVec.toNat (registers.keep_get .f)).symm.trans (Register.toNat_keep_f _)
  rw [getPair, toNat_joinBytes, low]
  omega

/-- Registers that agree on a pair and outside it are equal. -/
theorem ext_getPair {registers other : Registers} (pair : Pair)
    (inside : registers.getPair pair = other.getPair pair)
    (outside : ∀ register ∉ [pair.high, pair.low], registers.get register = other.get register) :
    registers = other := by
  apply ext_get
  intro register
  by_cases high : register = pair.high
  · subst high
    simpa [getPair] using congrArg highByte inside
  · by_cases low : register = pair.low
    · subst low
      simpa [getPair] using congrArg lowByte inside
    · exact outside register (by simp [high, low])

/-- Counting up is lost on the flags. -/
theorem incrementPair_af : registers.incrementPair .af = registers := by
  apply ext_getPair .af
  case inside =>
    -- One more than a multiple of sixteen lies above the same multiple.
    have multiple := registers.sixteen_dvd_getPair_af
    apply BitVec.eq_of_toNat_eq
    rw [incrementPair, toNat_getPair_setPair_af]
    bv_omega
  case outside =>
    intro register free
    exact registers.get_setPair_of_ne free _

theorem toNat_getPair_decrementPair_af :
    (((registers.decrementPair .af).getPair .af).toNat : Int) =
      ((registers.getPair .af).toNat - 16) % 65536 := by
  have multiple := registers.sixteen_dvd_getPair_af
  rw [decrementPair, toNat_getPair_setPair_af]
  bv_omega

end Registers

namespace Count

/-- A count adds its change to the word of the pair. -/
theorem toNat_getPair_apply (count : Count) (pair : Pair) (registers : Registers) :
    ((((count.update pair).apply registers).getPair pair).toNat : Int) =
      ((registers.getPair pair).toNat + count.change pair) % 65536 := by
  have small := (registers.getPair pair).isLt
  by_cases flags : pair = .af
  · subst flags
    cases count with
    | up =>
        rw [update, Update.apply, registers.incrementPair_af, change, if_pos rfl]
        omega
    | down =>
        rw [update, Update.apply, registers.toNat_getPair_decrementPair_af, change, if_pos rfl]
        omega
  · cases count with
    | up =>
        rw [update, Update.apply, Registers.incrementPair,
          Registers.getPair_setPair_of_ne_af _ flags, change, if_neg flags]
        bv_omega
    | down =>
        rw [update, Update.apply, Registers.decrementPair,
          Registers.getPair_setPair_of_ne_af _ flags, change, if_neg flags]
        bv_omega

theorem get_apply_of_ne (count : Count) {pair : Pair} {other : Register}
    (free : other ∉ [pair.high, pair.low]) (registers : Registers) :
    ((count.update pair).apply registers).get other = registers.get other := by
  cases count <;> exact registers.get_setPair_of_ne free _

end Count

/-! ## Any mix of counts -/

namespace Session

variable (session : Session) (pair : Pair) (counts : List Count)

/-- The changes of all counts add up. -/
theorem toNat_getPair_performAll :
    (((session.performAll (Count.requests pair counts)).cpu.registers.getPair pair).toNat : Int) =
      ((session.cpu.registers.getPair pair).toNat + Count.total pair counts) % 65536 := by
  induction counts generalizing session with
  | nil =>
      have small := (session.cpu.registers.getPair pair).isLt
      have nothing : Count.total pair [] = 0 := by simp [Count.total]
      rw [nothing, add_zero]
      exact (Int.emod_eq_of_lt (Int.natCast_nonneg _) (Int.ofNat_lt.mpr small)).symm
  | cons count rest ih =>
      let next := (session.perform (.update (count.update pair))).value.session
      have first : ((next.cpu.registers.getPair pair).toNat : Int) = _ :=
        count.toNat_getPair_apply pair session.cpu.registers
      calc (((session.performAll (Count.requests pair (count :: rest))).cpu.registers.getPair
            pair).toNat : Int)
          = ((next.cpu.registers.getPair pair).toNat + Count.total pair rest) % 65536 := ih next
        _ = ((session.cpu.registers.getPair pair).toNat + Count.total pair (count :: rest))
              % 65536 := by
            rw [first, Int.emod_add_emod, Count.total_cons, add_assoc]

theorem get_performAll_counts {other : Register} (free : other ∉ [pair.high, pair.low]) :
    (session.performAll (Count.requests pair counts)).cpu.registers.get other =
      session.cpu.registers.get other := by
  refine view_performAll_of_kept (fun session => session.cpu.registers.get other) ?_ session
  intro session command isMember
  obtain ⟨count, -, rfl⟩ := List.mem_map.mp isMember
  exact count.get_apply_of_ne free session.cpu.registers

theorem pc_performAll_counts :
    (session.performAll (Count.requests pair counts)).cpu.pc = session.cpu.pc := by
  refine view_performAll_of_kept (fun session => session.cpu.pc) ?_ session
  intro session command isMember
  obtain ⟨count, -, rfl⟩ := List.mem_map.mp isMember
  rfl

/-- A pair of two bytes counts modulo 65536 and leaves the flags alone. The pair that holds the
flags does not move up, and moves down by sixteen; there a step up does not undo a step down. In
every case the registers outside the pair and the program counter stay. -/
theorem pairs_count (session : Session) (counts : List Count) :
    let after := fun pair => session.performAll (Count.requests pair counts)
    let word := fun (session : Session) (pair : Pair) =>
      ((session.cpu.registers.getPair pair).toNat : Int)
    let flags := fun session : Session => session.cpu.registers.get .f
    let ups := counts.count .up
    let downs := counts.count .down
    (∀ pair : DataPair,
        word (after pair) pair = (word session pair + ups - downs) % 65536 ∧
          flags (after pair) = flags session) ∧
      (word (after .af) .af = (word session .af - 16 * downs) % 65536 ∧
        (session.perform (.update (.incrementPair .af))).value = session.done ∧
        (flags (after .af) = flags session ↔ 16 ∣ downs)) ∧
      ∀ pair : Pair, (after pair).cpu.pc = session.cpu.pc ∧
        ∀ other ∉ [pair.high, pair.low],
          (after pair).cpu.registers.get other = session.cpu.registers.get other := by
  intro after word flags ups downs
  have added (pair : Pair) :
      word (after pair) pair = (word session pair + Count.total pair counts) % 65536 :=
    session.toNat_getPair_performAll pair counts
  have flagWord : word (after .af) .af = (word session .af - 16 * downs) % 65536 := by
    have total : Count.total .af counts = -(16 * downs) := by
      rw [Count.total, Count.change, Count.change, if_pos rfl, if_pos rfl]
      ring
    rw [added, total, ← sub_eq_add_neg]
  refine ⟨fun pair => ⟨?word, ?kept⟩, ⟨flagWord, ?up, ?flags⟩,
    fun pair => ⟨session.pc_performAll_counts pair counts,
      fun other free => session.get_performAll_counts pair counts free⟩⟩
  case word =>
    have data := pair.toPair_ne_af
    have total : Count.total pair counts = ups - downs := by
      rw [Count.total, Count.change, Count.change, if_neg data, if_neg data]
      ring
    rw [added, total, add_sub_assoc]
  case kept =>
    exact session.get_performAll_counts pair counts (Pair.f_not_mem_halves pair.toPair_ne_af)
  case up =>
    change (session.setRegisters (session.cpu.registers.incrementPair .af)).done = session.done
    rw [Registers.incrementPair_af]
    rfl
  case flags =>
    have before := session.cpu.registers.toNat_get_f
    have behind := (after .af).cpu.registers.toNat_get_f
    rw [← BitVec.toNat_inj, before, behind]
    simp only [word] at flagWord
    omega

example :
    let session : Session := { cpu := { registers := { a := 0x12, flags := .ofByte 0x30 } } }
    let after := session.performAll (Count.requests .af [.up, .down])
    after.cpu.registers.getPair .af = 0x1220 := by
  decide

end Session

end Sm83
