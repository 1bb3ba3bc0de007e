import Sm83.Register.Basic

/-! # Register pairs

Two byte registers seen as one word. A pair is named by its two letters, the high
half first. -/

namespace Sm83

/-- The four register pairs. -/
inductive Pair where
  | af | bc | de | hl
  deriving DecidableEq, Repr

namespace Pair

/-- Every register pair. -/
def all : List Pair := [af, bc, de, hl]

/-- The register that holds the upper byte. -/
def high : Pair → Register
  | af => .a
  | bc => .b
  | de => .d
  | hl => .h

/-- The register that holds the lower byte. -/
def low : Pair → Register
  | af => .f
  | bc => .c
  | de => .e
  | hl => .l

theorem high_ne_f (pair : Pair) : pair.high ≠ .f := by
  cases pair <;> decide

/-- No register is an upper half of one pair and a lower half of another. -/
theorem high_ne_low (pair other : Pair) : pair.high ≠ other.low := by
  cases pair <;> cases other <;> decide

theorem low_ne_f {pair : Pair} (data : pair ≠ .af) : pair.low ≠ .f := by
  cases pair with
  | af => exact absurd rfl data
  | _ => decide

theorem f_not_mem_halves {pair : Pair} (data : pair ≠ .af) :
    Register.f ∉ [pair.high, pair.low] := by
  cases pair with
  | af => exact absurd rfl data
  | _ => decide

/-- The letters that name a pair. -/
def letters (pair : Pair) : List Char := [pair.high.letter, pair.low.letter]

/-- The name of a pair. -/
def name (pair : Pair) : String := String.ofList pair.letters

/-- The pair formed by two registers. -/
def ofHalves? (high low : Register) : Option Pair :=
  all.find? fun pair => pair.high == high && pair.low == low

theorem ofHalves?_eq_some_iff {high low : Register} {pair : Pair} :
    ofHalves? high low = some pair ↔ pair.high = high ∧ pair.low = low := by
  revert pair
  cases high <;> cases low <;> intro pair <;> cases pair <;> decide

/-- The pair formed by two registers, or a complaint that names both. -/
def ofHalves (high low : Register) : Except Fault Pair :=
  match ofHalves? high low with
  | some pair => .ok pair
  | none => .error (.unknownPair (high.name ++ low.name))

/-- The pair named by two letters of either case. -/
def ofLetters? (letters : List Char) : Option Pair :=
  all.find? (·.letters == letters.map Char.toLower)

theorem ofLetters?_eq_some_iff {letters : List Char} {pair : Pair} :
    ofLetters? letters = some pair ↔ letters.map Char.toLower = pair.letters := by
  constructor
  · intro found
    unfold ofLetters? at found
    have same := List.find?_some found
    exact (beq_iff_eq.mp same).symm
  · intro named
    rw [ofLetters?, named]
    cases pair <;> decide

/-- Reads a name as a pair. -/
def parse (name : String) : Except Fault Pair :=
  match ofLetters? name.toList with
  | some pair => .ok pair
  | none => .error (.unknownPair name)

end Pair

/-- The pairs that an instruction can name: all but the one that holds the flags. -/
inductive DataPair where
  | bc | de | hl
  deriving DecidableEq, Repr

/-- A pair that an instruction can name, among all pairs. -/
@[coe] def DataPair.toPair : DataPair → Pair
  | bc => .bc
  | de => .de
  | hl => .hl

instance : Coe DataPair Pair := ⟨DataPair.toPair⟩

namespace DataPair

/-- The register that holds the upper byte. -/
def high : DataPair → DataRegister
  | bc => .b
  | de => .d
  | hl => .h

/-- The register that holds the lower byte. -/
def low : DataPair → DataRegister
  | bc => .c
  | de => .e
  | hl => .l

theorem toPair_ne_af (pair : DataPair) : (pair : Pair) ≠ .af := by
  cases pair <;> decide

@[simp] theorem high_toPair (pair : DataPair) : (pair : Pair).high = pair.high := by
  cases pair <;> rfl

@[simp] theorem low_toPair (pair : DataPair) : (pair : Pair).low = pair.low := by
  cases pair <;> rfl

end DataPair

end Sm83
