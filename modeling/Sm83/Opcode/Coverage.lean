import Sm83.Opcode.Basic

/-! # Coverage of the opcode maps

The place of every operation in the maps, and the places that are taken. Main statement:
a place holds an operation exactly if it is the operation's opcode, so each operation has
one opcode and no two share one. -/

namespace Sm83

namespace Operation

/-- The opcode of one byte with the given numbers in its fields. -/
def baseOpcode (group row column : Nat) : Opcode := .base (OpcodeFields.place group row column)

/-- The opcode of two bytes with the given numbers in the fields of the second. -/
def extendedOpcode (group row column : Nat) : Opcode :=
  .extended (OpcodeFields.place group row column)

/-- The first of the two rows of a pair. -/
def pairRow (pair : DataPair) : Nat := 2 * pair.number

/-- The second of the two rows of a pair. -/
def secondPairRow (pair : DataPair) : Nat := 2 * pair.number + 1

/-- The opcode of an operation. -/
def opcode : Operation → Opcode
  | nop => baseOpcode 0 0 0
  | loadPair pair => baseOpcode 0 (pairRow pair) 1
  | addHl pair => baseOpcode 0 (secondPairRow pair) 1
  | incrementPair pair => baseOpcode 0 (pairRow pair) 3
  | decrementPair pair => baseOpcode 0 (secondPairRow pair) 3
  | increment register => baseOpcode 0 register.number 4
  | decrement register => baseOpcode 0 register.number 5
  | load destination .immediate => baseOpcode 0 destination.number 6
  | rotateA rotation => baseOpcode 0 rotation.number 7
  | adjustDecimal => baseOpcode 0 4 7
  | complementA => baseOpcode 0 5 7
  | setCarry => baseOpcode 0 6 7
  | complementCarry => baseOpcode 0 7 7
  | load destination (.register source) => baseOpcode 1 destination.number source.number
  | arithmetic op (.register source) => baseOpcode 2 op.number source.number
  | arithmetic op .immediate => baseOpcode 3 op.number 6
  | shift kind register => extendedOpcode 0 kind.number register.number
  | checkBit position register => extendedOpcode 1 position register.number
  | clearBit position register => extendedOpcode 2 position register.number
  | setBit position register => extendedOpcode 3 position register.number

/-- An instruction is an opcode with an immediate value behind it. -/
theorem length_opcode_add_size (operation : Operation) :
    operation.opcode.bytes.length + operation.immediate.size = operation.length := by
  cases operation with
  | load _ source | arithmetic _ source => cases source <;> rfl
  | _ => rfl

end Operation

/-! ## Decoding and encoding undo each other -/

namespace Opcode

/-- An operation is found at its opcode. -/
theorem decode_opcode (operation : Operation) : operation.opcode.decode = some operation := by
  cases operation with
  | nop | adjustDecimal | complementA | setCarry | complementCarry => rfl
  | load destination source =>
      cases source with
      | register source => cases destination <;> cases source <;> rfl
      | immediate => cases destination <;> rfl
  | arithmetic op source =>
      cases source with
      | register source => cases op <;> cases source <;> rfl
      | immediate => cases op <;> rfl
  | loadPair pair | incrementPair pair | decrementPair pair | addHl pair => cases pair <;> rfl
  | increment register | decrement register => cases register <;> rfl
  | rotateA rotation => cases rotation <;> rfl
  | shift kind register =>
      cases kind with
      | rotate rotation => cases rotation <;> cases register <;> rfl
      | _ => cases register <;> rfl
  | checkBit position register | clearBit position register | setBit position register =>
      revert position
      cases register <;> decide

private theorem all_decode_base : ∀ byte : Byte,
    (base byte).decode.all (fun operation => operation.opcode = base byte) = true := by
  decide

private theorem all_decode_extended : ∀ byte : Byte,
    (extended byte).decode.all (fun operation => operation.opcode = extended byte) = true := by
  decide

theorem opcode_of_decode {code : Opcode} {operation : Operation}
    (decoded : code.decode = some operation) : operation.opcode = code := by
  cases code with
  | base byte => simpa [decoded] using all_decode_base byte
  | extended byte => simpa [decoded] using all_decode_extended byte

/-- An opcode stands for an operation exactly if it is the operation's opcode. -/
theorem decode_eq_some_iff {code : Opcode} {operation : Operation} :
    code.decode = some operation ↔ operation.opcode = code :=
  ⟨opcode_of_decode, fun same => same ▸ decode_opcode operation⟩

/-- Different operations have different opcodes. -/
theorem opcode_injective {first second : Operation} (same : first.opcode = second.opcode) :
    first = second := by
  have found := decode_opcode second
  rw [← same, decode_opcode] at found
  exact Option.some.inj found

/-! ## Implemented opcodes -/

/-- Every byte, in ascending order. -/
def allBytes : List Byte := (List.range 256).map (BitVec.ofNat 8)

/-- The bytes that are opcodes by themselves. -/
def coveredBase : List Byte := allBytes.filter fun byte => (base byte).decode.isSome

/-- The second bytes of the opcodes of two bytes. -/
def coveredExtended : List Byte := allBytes.filter fun byte => (extended byte).decode.isSome

end Opcode

end Sm83
