import Sm83.Fault
import Mathlib.Data.List.Basic

/-!
# Messages identify faults

The words that a message opens with tell the kind of its fault, since none of the five openings
begins with another one. Behind them a name stands as it was given, and a numeral can be read back
whatever its width. Main statement: faults with one message are one fault.
-/

namespace Sm83

/-! ## Hexadecimal numerals read back -/

namespace Text

/-- The number that a hexadecimal digit stands for. -/
def digitValue (digit : Char) : Nat :=
  if digit.isDigit then digit.toNat - '0'.toNat else digit.toNat - 'A'.toNat + 10

/-- The number that hexadecimal digits stand for, most significant first. -/
def numeralValue (digits : List Char) : Nat :=
  digits.foldl (fun value digit => 16 * value + digitValue digit) 0

theorem numeralValue_append_singleton (digits : List Char) (digit : Char) :
    numeralValue (digits ++ [digit]) = 16 * numeralValue digits + digitValue digit :=
  List.foldl_concat _ 0 digit digits

theorem digitValue_digitChar : ∀ digit < 16, digitValue digit.digitChar.toUpper = digit := by
  decide

theorem numeralValue_hexDigits (n : Nat) : numeralValue (hexDigits n) = n := by
  induction n using Nat.base_induction 16 (by decide) with
  | single digit small =>
      rw [hexDigits, Nat.toDigits_of_lt_base small]
      exact (Nat.zero_add _).trans (digitValue_digitChar digit small)
  | digit upper last small positive ih =>
      have split : hexDigits (16 * upper + last) = hexDigits upper ++ [last.digitChar.toUpper] := by
        rw [hexDigits, ← Nat.toDigits_append_toDigits (by decide) positive small,
          Nat.toDigits_of_lt_base small, List.map_append]
        rfl
      rw [split, numeralValue_append_singleton, ih, digitValue_digitChar last small]

/-- Zeros in front of a numeral do not count. -/
theorem numeralValue_leftpad (width : Nat) (digits : List Char) :
    numeralValue (digits.leftpad width '0') = numeralValue digits := by
  have zeros (count : Nat) : numeralValue (List.replicate count '0') = 0 := by
    induction count with
    | zero => rfl
    | succ count ih =>
        rw [List.replicate_succ', numeralValue_append_singleton, ih]
        rfl
  rw [numeralValue, List.leftpad, List.foldl_append]
  exact congrArg (fun value => digits.foldl _ value) (zeros _)

theorem numeralValue_hex (width n : Nat) : numeralValue (hex width n).toList = n := by
  rw [hex, String.toList_ofList, numeralValue_leftpad, numeralValue_hexDigits]

/-- Numerals of different numbers differ, whatever their widths. -/
theorem eq_of_hex_eq {width other m n : Nat} (same : hex width m = hex other n) : m = n := by
  rw [← numeralValue_hex width m, same, numeralValue_hex]

/-- A word takes four digits, no more and no less. -/
theorem length_hex_word (word : Word) : (hex 4 word.toNat).length = 4 := by
  have short : (hexDigits word.toNat).length ≤ 4 := by
    rw [hexDigits, List.length_map, Nat.length_toDigits_le_iff (by decide) (by decide)]
    exact word.isLt
  rw [hex, String.length_ofList, List.length_leftpad, Nat.max_eq_left short]

theorem eq_of_markedHex_eq {width other m n : Nat} (same : markedHex width m = markedHex other n) :
    m = n :=
  eq_of_hex_eq ((String.append_right_inj _).mp same)

/-- Texts that end in parts of one length are equal part by part. -/
theorem eq_of_append_eq {front back otherFront otherBack : String}
    (same : front ++ back = otherFront ++ otherBack) (ends : back.length = otherBack.length) :
    front = otherFront ∧ back = otherBack := by
  rw [← String.toList_inj, String.toList_append, String.toList_append] at same
  rw [← String.length_toList, ← String.length_toList] at ends
  rw [← String.toList_inj, ← String.toList_inj]
  exact List.append_inj' same ends

theorem eq_of_repr_eq {m n : Nat} (same : Nat.repr m = Nat.repr n) : m = n := by
  have digits : Nat.toDigits 10 m = Nat.toDigits 10 n := by
    rw [← Nat.toList_repr, same, Nat.toList_repr]
  calc m = Nat.ofDigitChars 10 (Nat.toDigits 10 m) 0 := Nat.ofDigitChars_ten_toDigits.symm
    _ = Nat.ofDigitChars 10 (Nat.toDigits 10 n) 0 := by rw [digits]
    _ = n := Nat.ofDigitChars_ten_toDigits

end Text

namespace Fault

/-! ## Kinds of faults -/

/-- The words that a message opens with, up to what it tells of the single fault. -/
def opening : Fault → String
  | .unknownRegister _ => "invalid register '"
  | .unknownPair _ => "invalid register pair '"
  | .unimplemented _ _ => "unimplemented opcode "
  | .outOfRange _ => "address "
  | .badBitPosition _ => "bit position "

/-- What a message tells behind its opening words. -/
def detail : Fault → String
  | .unknownRegister name | .unknownPair name => name ++ "'"
  | .unimplemented opcode pc =>
      Text.markedHex (opcodeWidth opcode) opcode.toNat ++ (" at PC=" ++ Text.markedHex 4 pc.toNat)
  | .outOfRange address => Text.markedHex 1 address ++ " is outside the 16-bit bus"
  | .badBitPosition position => Nat.repr position.toNat ++ " is outside 0..=7"

theorem message_eq (fault : Fault) : fault.message = fault.opening ++ fault.detail := by
  cases fault with
  | unimplemented _ _ => exact String.append_assoc.trans String.append_assoc
  | _ => exact String.append_assoc

/-- No opening begins with a different one. -/
theorem opening_eq_of_begins {first second : Fault}
    (begins : first.opening.toList <+: second.opening.toList) :
    first.opening = second.opening := by
  revert begins
  cases first <;> cases second <;> simp [opening]

/-- Equal messages open with the same words and tell the same behind them. -/
theorem parts_eq_of_message_eq {first second : Fault} (same : first.message = second.message) :
    first.opening = second.opening ∧ first.detail = second.detail := by
  have begins (fault : Fault) : fault.opening.toList <+: fault.message.toList := by
    rw [message_eq, String.toList_append]
    exact List.prefix_append _ _
  have words : first.opening = second.opening := by
    -- Both openings begin the one message, so one of them begins the other.
    have both := List.prefix_or_prefix_of_prefix (begins first) (same ▸ begins second)
    rcases both with shorter | longer
    · exact opening_eq_of_begins shorter
    · exact (opening_eq_of_begins longer).symm
  rw [message_eq, message_eq, words] at same
  exact ⟨words, (String.append_right_inj _).mp same⟩

/-! ## What the details tell -/

theorem eq_of_detail_unimplemented_eq {opcode other pc otherPc : Word}
    (same : (unimplemented opcode pc).detail = (unimplemented other otherPc).detail) :
    opcode = other ∧ pc = otherPc := by
  -- An opcode has two digits or four, but what follows it always has the same length.
  have ends (pc : Word) : (" at PC=" ++ Text.markedHex 4 pc.toNat).length = 13 := by
    rw [String.length_append, Text.markedHex, String.length_append, Text.length_hex_word]
    rfl
  obtain ⟨opcodes, pcs⟩ := Text.eq_of_append_eq same ((ends pc).trans (ends otherPc).symm)
  have address := Text.eq_of_markedHex_eq ((String.append_right_inj _).mp pcs)
  exact ⟨BitVec.eq_of_toNat_eq (Text.eq_of_markedHex_eq opcodes), BitVec.eq_of_toNat_eq address⟩

/-- Faults that are reported by the same message are the same fault. -/
theorem message_eq_iff (first second : Fault) :
    first.message = second.message ↔ first = second := by
  refine ⟨fun same => ?_, congrArg message⟩
  obtain ⟨kind, told⟩ := parts_eq_of_message_eq same
  cases first with
  | unknownRegister name =>
      cases second with
      | unknownRegister other =>
          exact congrArg unknownRegister ((String.append_left_inj _).mp told)
      | _ => simp [opening] at kind
  | unknownPair name =>
      cases second with
      | unknownPair other => exact congrArg unknownPair ((String.append_left_inj _).mp told)
      | _ => simp [opening] at kind
  | unimplemented opcode pc =>
      cases second with
      | unimplemented other otherPc =>
          obtain ⟨rfl, rfl⟩ := eq_of_detail_unimplemented_eq told
          rfl
      | _ => simp [opening] at kind
  | outOfRange address =>
      cases second with
      | outOfRange other =>
          have numeral := (String.append_left_inj _).mp told
          exact congrArg outOfRange (Text.eq_of_markedHex_eq numeral)
      | _ => simp [opening] at kind
  | badBitPosition position =>
      cases second with
      | badBitPosition other =>
          have numeral := (String.append_left_inj _).mp told
          exact congrArg badBitPosition (BitVec.eq_of_toNat_eq (Text.eq_of_repr_eq numeral))
      | _ => simp [opening] at kind

end Fault

end Sm83
