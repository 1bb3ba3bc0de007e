import Sm83.Cpu.Basic
import Sm83.Operation.Basic
import Sm83.Update

/-! # Commands of a monitor

A monitor lets a user look at a processor and its memory, change them and let the processor
work. Queries only look; all else is a command. -/

namespace Sm83

/-- A question about the state. -/
inductive Query where
  | register (register : Register)
  | registerNamed (name : String)
  | pair (pair : Pair)
  | pairNamed (name : String)
  | joined (high low : Register)
  | testBit (register : Register) (position : Byte)
  | pc
  | flags
  | flag (flag : Flag)
  | operation (opcode : Byte)
  | describe
  | matchesSaved
  | memoryByte (address : Nat)
  | memoryAt (address : Word)
  | describeMemory
  deriving Repr

/-- A request to the monitor. -/
inductive Command where
  | ask (query : Query)
  | update (update : Update)
  | setNamed (name : String) (value : Int)
  | checkBit (register : Register) (position : Byte)
  | setBit (register : Register) (position : Byte)
  | clearBit (register : Register) (position : Byte)
  | setPc (address : Word)
  | reset (snapshot : Snapshot)
  | save
  | restore
  | step
  | run (limit : Nat)
  | load (origin : Nat) (block : List Byte)
  | writeByte (address : Nat) (byte : Byte)
  | writeAt (address : Word) (byte : Byte)
  deriving Repr

/-- What the monitor answers. -/
inductive Reply where
  | nothing
  | truth (value : Bool)
  | byte (value : Byte)
  | word (value : Word)
  | flags (flags : Flags)
  | operation (operation : Option Operation)
  | text (text : String)
  | stepped (cycles : Nat) (reads : List Word)
  | ran (cycles : BitVec 64) (readCount : Nat)
  deriving Repr

end Sm83
