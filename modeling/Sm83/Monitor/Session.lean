import Sm83.Cpu.Run
import Sm83.Memory.Stretch
import Sm83.Monitor.Command
import Sm83.Opcode.Coverage

/-! # Monitor sessions

A session holds a processor, its memory and at most one saved copy of both. Every command
leads to a session and an answer; a command that is refused leaves its session as it was,
except that a run keeps the steps before the one that failed. -/

namespace Sm83

/-- The state that a monitor works on. -/
structure Session where
  cpu : Cpu := {}
  memory : Memory := .blank
  saved : Option (Cpu × Memory) := none

/-- The session after a command, and the answer. -/
structure Response where
  session : Session
  answer : Except Fault Reply

namespace Session

/-- Makes a processor from a snapshot, and memory that holds a program if one is given. -/
def start (snapshot : Snapshot) (program : Option (Nat × List Byte)) :
    Traced (Except Fault Session) := do
  Traced.log (.started snapshot)
  let cpu := Cpu.ofSnapshot snapshot
  match program with
  | none => return .ok { cpu }
  | some (origin, block) =>
      let loaded ← Memory.blank.load origin block
      return loaded.map fun memory => { cpu, memory }

/-- The answer to a question. -/
def answer (session : Session) : Query → Except Fault Reply
  | .register register => .ok (.byte (session.cpu.registers.get register))
  | .registerNamed name =>
      (Register.parse name).map fun register => .byte (session.cpu.registers.get register)
  | .pair pair => .ok (.word (session.cpu.registers.getPair pair))
  | .pairNamed name =>
      (Pair.parse name).map fun pair => .word (session.cpu.registers.getPair pair)
  | .joined high low => (session.cpu.registers.join high low).map .word
  | .testBit register position =>
      (bitPosition position).map fun position =>
        .truth (session.cpu.registers.testBit register position)
  | .pc => .ok (.word session.cpu.pc)
  | .flags => .ok (.flags session.cpu.registers.flags)
  | .flag flag => .ok (.truth (session.cpu.registers.flags.get flag))
  | .operation opcode => .ok (.operation (Opcode.base opcode).decode)
  | .describe => .ok (.text session.cpu.describe)
  | .matchesSaved =>
      match session.saved with
      | some (cpu, _) => .ok (.truth (session.cpu == cpu))
      | none => .ok .nothing
  | .memoryByte address => (session.memory.readByte address).map .byte
  | .memoryAt address => .ok (.byte (session.memory.read address))
  | .describeMemory => .ok (.text session.memory.describe)

/-- The session with other registers. -/
def setRegisters (session : Session) (registers : Registers) : Session :=
  { session with cpu := { session.cpu with registers } }

/-- The session after a change that nothing can refuse. -/
def done (session : Session) : Response := ⟨session, .ok .nothing⟩

/-- The session after a change of registers that may be refused. -/
def tryRegisters (session : Session) (result : Except Fault Registers) : Response :=
  match result with
  | .ok registers => (session.setRegisters registers).done
  | .error fault => ⟨session, .error fault⟩

/-- The session after a change of memory that may be refused. -/
def tryMemory (session : Session) (result : Except Fault Memory) : Response :=
  match result with
  | .ok memory => { session with memory }.done
  | .error fault => ⟨session, .error fault⟩

/-- Executes one instruction. -/
def step (session : Session) : Traced Response :=
  let step := session.cpu.step session.memory.read
  let response : Response :=
    match step.value with
    | .ok progress =>
        ⟨{ session with cpu := progress.cpu }, .ok (.stepped progress.cycles step.reads)⟩
    | .error fault => ⟨session, .error fault⟩
  ⟨response, step.events⟩

/-- Executes instructions up to a limit. -/
def run (session : Session) (limit : Nat) : Traced Response :=
  let run := session.cpu.run session.memory.read limit
  let answer := run.outcome.map fun cycles => Reply.ran cycles run.reads.length
  ⟨⟨{ session with cpu := run.cpu }, answer⟩, run.events.toList⟩

/-- Carries out a command. -/
def perform (session : Session) (command : Command) : Traced Response :=
  let registers := session.cpu.registers
  match command with
  | .ask query => return ⟨session, session.answer query⟩
  | .update update => return (session.setRegisters (update.apply registers)).done
  | .setNamed name value =>
      return session.tryRegisters <| (Register.parse name).map (registers.setInt · value)
  | .checkBit register position =>
      return session.tryRegisters <| (bitPosition position).map (registers.checkBit register)
  | .setBit register position =>
      return session.tryRegisters <| (bitPosition position).map (registers.setBit register)
  | .clearBit register position =>
      return session.tryRegisters <| (bitPosition position).map (registers.clearBit register)
  | .setPc address => return { session with cpu := { session.cpu with pc := address } }.done
  | .reset snapshot => return { session with cpu := .ofSnapshot snapshot }.done
  | .save => return { session with saved := some (session.cpu, session.memory) }.done
  | .restore =>
      match session.saved with
      | some (cpu, memory) => return { session with cpu, memory }.done
      | none => return session.done
  | .step => session.step
  | .run limit => session.run limit
  | .load origin block => do
      let loaded ← session.memory.load origin block
      return session.tryMemory loaded
  | .writeByte address byte => return session.tryMemory (session.memory.writeByte address byte)
  | .writeAt address byte =>
      return { session with memory := session.memory.write address byte }.done

/-- Carries out a command once for every byte in a list: each time the processor is reset and
the byte stored in a register beforehand. The first refusal ends it. -/
def sweep (session : Session) (snapshot : Snapshot) (register : Register) (command : Command) :
    List Byte → Except Fault (List (Cpu × Reply))
  | [] => .ok []
  | byte :: rest => do
      let cpu := Cpu.ofSnapshot snapshot
      let cpu := { cpu with registers := cpu.registers.set register byte }
      let response := ({ session with cpu }.perform command).value
      let reply ← response.answer
      let others ← sweep response.session snapshot register command rest
      return (response.session.cpu, reply) :: others

end Session

end Sm83
