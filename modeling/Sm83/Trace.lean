import Sm83.Cpu.Basic
import Sm83.Opcode.Basic
import Sm83.Operation.Text

/-! # Traces

What a computation does besides returning a value: it reads bytes from the bus and it
writes records to the log. A traced computation carries both in the order in which they
happen, and a sequence of computations has their traces one after the other. -/

namespace Sm83

/-- The importance of a log record. -/
inductive Level where
  | trace | debug | error
  deriving DecidableEq, Repr

/-- The name of a level. -/
def Level.name : Level → String
  | trace => "TRACE"
  | debug => "DEBUG"
  | error => "ERROR"

/-- What the log tells. -/
inductive Record where
  /-- A processor was made from a snapshot. -/
  | started (snapshot : Snapshot)
  /-- The opcode maps were counted. -/
  | mapped (base extended : Nat)
  /-- A block was copied into memory. -/
  | loaded (origin size : Nat)
  /-- An instruction at `pc` left these registers. -/
  | executed (pc : Word) (opcode : Opcode) (operation : Operation) (registers : Registers)
  /-- The opcode at `pc` is not implemented. -/
  | unimplemented (pc : Word) (opcode : Opcode) (registers : Registers)
  deriving DecidableEq, Repr

namespace Record

/-- The importance of a record. -/
def level : Record → Level
  | started _ | mapped _ _ | loaded _ _ => .debug
  | executed _ _ _ _ => .trace
  | unimplemented _ _ _ => .error

/-- The four pairs with their words. -/
def pairsText (registers : Registers) : String :=
  " ".intercalate <| Pair.all.map fun pair =>
    pair.name.map Char.toUpper ++ "=" ++ Text.markedHex 4 (registers.getPair pair).toNat

/-- The text of a record. -/
def text : Record → String
  | started snapshot => "GB CPU init: " ++ snapshot.describe
  | mapped base extended =>
      "GB dispatch table built: " ++ Nat.repr base ++ " base, " ++ Nat.repr extended
        ++ " CB-prefixed opcodes"
  | loaded origin size =>
      "loaded " ++ Nat.repr size ++ " bytes at " ++ Text.markedHex 4 origin ++ ".."
        ++ Text.markedHex 4 (origin + size)
  | executed pc opcode operation registers =>
      "PC=" ++ Text.markedHex 4 pc.toNat ++ " op=" ++ Text.markedHex 2 opcode.first.toNat ++ " "
        ++ operation.text ++ " cycles=" ++ Nat.repr operation.cycles ++ " "
        ++ pairsText registers
  | unimplemented pc opcode registers =>
      "GB CPU: unimplemented opcode " ++ Text.markedHex 2 opcode.number.toNat ++ " at PC="
        ++ Text.markedHex 4 pc.toNat ++ " (" ++ pairsText registers ++ ")"

end Record

/-- A single effect: a byte read from the bus, or a record written to the log. -/
inductive Event where
  | read (address : Word)
  | log (record : Record)
  deriving DecidableEq, Repr

namespace Event

/-- The address of a read. -/
def address? : Event → Option Word
  | read address => some address
  | log _ => none

/-- The record of a log entry. -/
def record? : Event → Option Record
  | read _ => none
  | log record => some record

end Event

/-- A value with the effects met on the way to it. -/
structure Traced (α : Type) where
  value : α
  events : List Event := []

namespace Traced

variable {α β : Type}

/-- A value without effects. -/
protected def pure (value : α) : Traced α := { value }

/-- One computation after another; the second sees the first one's value. -/
protected def bind (first : Traced α) (next : α → Traced β) : Traced β :=
  let second := next first.value
  ⟨second.value, first.events ++ second.events⟩

instance : Monad Traced where
  pure := Traced.pure
  bind := Traced.bind

/-- Writes a record to the log. -/
def log (record : Record) : Traced Unit := ⟨(), [.log record]⟩

/-- The addresses read, in order. -/
def reads (traced : Traced α) : List Word := traced.events.filterMap Event.address?

/-- The records written, in order. -/
def records (traced : Traced α) : List Record := traced.events.filterMap Event.record?

@[simp] theorem value_pure (value : α) : (pure value : Traced α).value = value := rfl

@[simp] theorem events_pure (value : α) : (pure value : Traced α).events = [] := rfl

@[simp] theorem value_bind (first : Traced α) (next : α → Traced β) :
    (first >>= next).value = (next first.value).value := rfl

@[simp] theorem events_bind (first : Traced α) (next : α → Traced β) :
    (first >>= next).events = first.events ++ (next first.value).events := rfl

end Traced

end Sm83
