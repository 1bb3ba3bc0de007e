import Sm83.Flags
import Sm83.Register.Pair
import Sm83.Text

/-! # Register contents

What the eight registers hold. Seven hold a byte each. The eighth holds the four
conditions, so a byte stored there keeps its upper half only. A pair is never
stored: its word is joined from the halves on every reading and split into them on
every writing. -/

namespace Sm83

/-- The contents of the eight registers. -/
structure Registers where
  a : Byte := 0
  b : Byte := 0
  c : Byte := 0
  d : Byte := 0
  e : Byte := 0
  h : Byte := 0
  l : Byte := 0
  flags : Flags := {}
  deriving DecidableEq, Repr, Inhabited

/-- The part of a byte that a register keeps. -/
def Register.keep : Register → Byte → Byte
  | .f, byte => byte &&& 0xF0
  | _, byte => byte

theorem Register.keep_of_ne_f {register : Register} (data : register ≠ .f) (byte : Byte) :
    register.keep byte = byte := by
  cases register with
  | f => exact absurd rfl data
  | _ => rfl

/-- The flag register keeps the multiple of sixteen below a byte. -/
theorem Register.toNat_keep_f (byte : Byte) : (f.keep byte).toNat = 16 * (byte.toNat / 16) := by
  revert byte
  decide

@[simp] theorem DataRegister.keep_toRegister (register : DataRegister) (byte : Byte) :
    (register : Register).keep byte = byte :=
  Register.keep_of_ne_f register.toRegister_ne_f byte

theorem Flags.keep_toByte (flags : Flags) : Register.f.keep flags.toByte = flags.toByte := by
  rw [Register.keep, ← toByte_ofByte, ofByte_toByte]

namespace Registers

/-- The byte in a register. -/
def get (registers : Registers) : Register → Byte
  | .a => registers.a
  | .b => registers.b
  | .c => registers.c
  | .d => registers.d
  | .e => registers.e
  | .f => registers.flags.toByte
  | .h => registers.h
  | .l => registers.l

/-- Stores a byte in a register. -/
def set (registers : Registers) (register : Register) (byte : Byte) : Registers :=
  match register with
  | .a => { registers with a := byte }
  | .b => { registers with b := byte }
  | .c => { registers with c := byte }
  | .d => { registers with d := byte }
  | .e => { registers with e := byte }
  | .f => { registers with flags := .ofByte byte }
  | .h => { registers with h := byte }
  | .l => { registers with l := byte }

/-- Stores a number in a register, modulo 256. -/
def setInt (registers : Registers) (register : Register) (value : Int) : Registers :=
  registers.set register (BitVec.ofInt 8 value)

/-- The word in a pair. -/
def getPair (registers : Registers) (pair : Pair) : Word :=
  joinBytes (registers.get pair.high) (registers.get pair.low)

/-- Stores a word in a pair. -/
def setPair (registers : Registers) (pair : Pair) (word : Word) : Registers :=
  (registers.set pair.high (highByte word)).set pair.low (lowByte word)

/-- The word in the pair that two registers form. -/
def join (registers : Registers) (high low : Register) : Except Fault Word :=
  (Pair.ofHalves high low).map registers.getPair

/-- The bytes in all registers, in listing order. -/
def bytes (registers : Registers) : List Byte := Register.all.map registers.get

@[simp] theorem get_set_self (registers : Registers) (register : Register) (byte : Byte) :
    (registers.set register byte).get register = register.keep byte := by
  cases register with
  | f => exact Flags.toByte_ofByte byte
  | _ => rfl

theorem get_set_of_ne (registers : Registers) {register other : Register}
    (different : other ≠ register) (byte : Byte) :
    (registers.set register byte).get other = registers.get other := by
  cases register <;> cases other <;> simp_all [get, set]

theorem get_set (registers : Registers) (register other : Register) (byte : Byte) :
    (registers.set register byte).get other =
      if other = register then register.keep byte else registers.get other := by
  split
  · next same => rw [same, get_set_self]
  · next different => exact registers.get_set_of_ne different byte

/-- What a register holds it can keep. -/
theorem keep_get (registers : Registers) (register : Register) :
    register.keep (registers.get register) = registers.get register := by
  cases register with
  | f => exact registers.flags.keep_toByte
  | _ => rfl

/-- Registers that read alike are equal. -/
theorem ext_get {registers other : Registers}
    (same : ∀ register, registers.get register = other.get register) : registers = other := by
  have flagsSame := Flags.toByte_injective (same .f)
  obtain ⟨⟩ := registers
  obtain ⟨⟩ := other
  have := same .a
  have := same .b
  have := same .c
  have := same .d
  have := same .e
  have := same .h
  have := same .l
  simp_all [get]

@[simp] theorem flags_set_data (registers : Registers) (register : DataRegister) (byte : Byte) :
    (registers.set register byte).flags = registers.flags := by
  cases register <;> rfl

@[simp] theorem ofByte_get_f (registers : Registers) :
    Flags.ofByte (registers.get .f) = registers.flags :=
  Flags.ofByte_toByte registers.flags

theorem flags_set_of_ne_f (registers : Registers) {register : Register} (data : register ≠ .f)
    (byte : Byte) : (registers.set register byte).flags = registers.flags := by
  rw [← ofByte_get_f, get_set_of_ne registers data.symm, ofByte_get_f]

theorem get_withFlags_of_ne_f (registers : Registers) {register : Register}
    (data : register ≠ .f) (flags : Flags) :
    ({ registers with flags } : Registers).get register = registers.get register := by
  cases register with
  | f => exact absurd rfl data
  | _ => rfl

theorem get_high_setPair (registers : Registers) (pair : Pair) (word : Word) :
    (registers.setPair pair word).get pair.high = highByte word := by
  rw [setPair, get_set_of_ne _ (pair.high_ne_low pair), get_set_self,
    Register.keep_of_ne_f pair.high_ne_f]

theorem getPair_setPair (registers : Registers) (pair : Pair) (word : Word) :
    (registers.setPair pair word).getPair pair =
      joinBytes (highByte word) (pair.low.keep (lowByte word)) := by
  rw [getPair, get_high_setPair, setPair, get_set_self]

theorem getPair_setPair_of_ne_af (registers : Registers) {pair : Pair} (data : pair ≠ .af)
    (word : Word) : (registers.setPair pair word).getPair pair = word := by
  rw [getPair_setPair, Register.keep_of_ne_f (Pair.low_ne_f data), joinBytes_highByte_lowByte]

theorem getPair_withFlags (registers : Registers) {pair : Pair} (data : pair ≠ .af)
    (flags : Flags) :
    ({ registers with flags } : Registers).getPair pair = registers.getPair pair := by
  rw [getPair, getPair, get_withFlags_of_ne_f _ pair.high_ne_f,
    get_withFlags_of_ne_f _ (Pair.low_ne_f data)]

theorem get_setPair_of_ne (registers : Registers) {pair : Pair} {other : Register}
    (free : other ∉ [pair.high, pair.low]) (word : Word) :
    (registers.setPair pair word).get other = registers.get other := by
  have high := List.ne_of_not_mem_cons free
  have low := List.ne_of_not_mem_cons (List.not_mem_of_not_mem_cons free)
  rw [setPair, get_set_of_ne _ low, get_set_of_ne _ high]

/-- The written form of the register contents. -/
def describe (registers : Registers) : String :=
  Text.record "RegisterFile"
    [("regs", Text.sequence (registers.bytes.map fun byte => Nat.repr byte.toNat))]

end Registers

end Sm83
