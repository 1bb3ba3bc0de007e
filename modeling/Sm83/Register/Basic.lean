import Sm83.Fault

/-! # Registers by name

The eight byte registers, the letters that name them, and the seven among them
that an instruction can name. Letters are read without regard to case; only the
letters A to Z have a case here. -/

namespace Sm83

/-- The eight byte registers, in the order in which they are listed. -/
inductive Register where
  | a | b | c | d | e | f | h | l
  deriving DecidableEq, Repr, Inhabited

namespace Register

/-- Every register, in listing order. -/
def all : List Register := [a, b, c, d, e, f, h, l]

/-- The letter that names a register. -/
def letter : Register → Char
  | a => 'a'
  | b => 'b'
  | c => 'c'
  | d => 'd'
  | e => 'e'
  | f => 'f'
  | h => 'h'
  | l => 'l'

/-- The register named by a letter of either case. -/
def ofLetter? (letter : Char) : Option Register :=
  all.find? (·.letter == letter.toLower)

theorem ofLetter?_eq_some_iff {letter : Char} {register : Register} :
    ofLetter? letter = some register ↔ letter.toLower = register.letter := by
  constructor
  · intro found
    unfold ofLetter? at found
    have same := List.find?_some found
    exact (beq_iff_eq.mp same).symm
  · intro named
    rw [ofLetter?, named]
    cases register <;> decide

/-- Reads a letter as a register. -/
def ofLetter (letter : Char) : Except Fault Register :=
  match ofLetter? letter with
  | some register => .ok register
  | none => .error (.unknownRegister (String.singleton letter))

/-- Reads a name as a register: the name is a single letter. -/
def parse (name : String) : Except Fault Register :=
  match name.toList with
  | [letter] => ofLetter letter
  | _ => .error (.unknownRegister name)

/-- The name of a register. -/
def name (register : Register) : String := String.singleton register.letter

end Register

/-- The registers that an instruction can name: all but the flags. -/
inductive DataRegister where
  | a | b | c | d | e | h | l
  deriving DecidableEq, Repr

/-- A register that an instruction can name, among all registers. -/
@[coe] def DataRegister.toRegister : DataRegister → Register
  | a => .a
  | b => .b
  | c => .c
  | d => .d
  | e => .e
  | h => .h
  | l => .l

instance : Coe DataRegister Register := ⟨DataRegister.toRegister⟩

namespace DataRegister

/-- Every register that an instruction can name. -/
def all : List DataRegister := [a, b, c, d, e, h, l]

theorem toRegister_injective {first second : DataRegister}
    (same : (first : Register) = second) : first = second := by
  revert same
  cases first <;> cases second <;> decide

@[simp] theorem toRegister_ne_f (register : DataRegister) : (register : Register) ≠ .f := by
  cases register <;> decide

/-- Every register but the flags can be named. -/
theorem exists_toRegister :
    ∀ {register : Register}, register ≠ .f → ∃ named : DataRegister, (named : Register) = register
  | .a, _ => ⟨.a, rfl⟩
  | .b, _ => ⟨.b, rfl⟩
  | .c, _ => ⟨.c, rfl⟩
  | .d, _ => ⟨.d, rfl⟩
  | .e, _ => ⟨.e, rfl⟩
  | .f, data => absurd rfl data
  | .h, _ => ⟨.h, rfl⟩
  | .l, _ => ⟨.l, rfl⟩

end DataRegister

end Sm83
