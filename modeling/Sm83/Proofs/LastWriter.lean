import Sm83.Proofs.Footprint
import Sm83.Proofs.Requests

/-!
# Memory holds what was written last

Whatever is asked of a session, its memory keeps one byte for each address of the bus: the one that
the last successful request for that address brought, or zero. Main statement: both ways of reading
give that byte, and the bytes are those of a strip on which the same requests were carried out.

## Implementation notes

A strip is a list of bytes. Its type does not fix its length: a block that is put down beyond its
end would lengthen it.
-/

namespace Sm83

/-- The block that a command brings to memory, with the address of its first byte. A single byte is
a block of one. -/
def Command.block? : Command → Option (Nat × List Byte)
  | .load origin block => some (origin, block)
  | .writeByte address byte => some (address, [byte])
  | .writeAt address byte => some (address.toNat, [byte])
  | _ => none

/-! ## Strips of bytes -/

/-- Bytes at successive addresses from 0 on, however many there are. -/
abbrev Strip := List Byte

namespace Strip

/-- As many zeros as the bus has addresses. -/
def blank : Strip := List.replicate memorySize 0

/-- Puts a block in the place of the bytes from an address on. -/
def splice (strip : Strip) (origin : Nat) (block : List Byte) : Strip :=
  strip.take origin ++ block ++ strip.drop (origin + block.length)

/-- The strip after a command. A block that would reach beyond the bus is left out. -/
def obey (strip : Strip) (command : Command) : Strip :=
  match command.block? with
  | some (origin, block) =>
      if origin + block.length ≤ memorySize then strip.splice origin block else strip
  | none => strip

/-- The strip after commands, one after another. -/
def obeyAll (strip : Strip) (commands : List Command) : Strip := commands.foldl obey strip

/-- A block is put down byte by byte. -/
theorem splice_cons {strip : Strip} {origin : Nat} (inside : origin < strip.length) (byte : Byte)
    (rest : List Byte) :
    strip.splice origin (byte :: rest) = splice (strip.set origin byte) (origin + 1) rest := by
  have before : (strip.set origin byte).take (origin + 1) = strip.take origin ++ [byte] := by
    rw [List.take_add_one, List.take_set_of_le (Nat.le_refl origin), List.getElem?_set_self inside]
    rfl
  have behind : (strip.set origin byte).drop (origin + 1 + rest.length) =
      strip.drop (origin + 1 + rest.length) :=
    List.drop_set_of_lt (by omega)
  rw [splice, splice, before, behind, List.append_assoc _ [byte], List.length_cons,
    Nat.add_comm rest.length 1, ← Nat.add_assoc]
  rfl

end Strip

namespace Memory

/-- The bytes of memory, without their number in the type. -/
def strip (memory : Memory) : Strip := memory.cells.toList

variable (memory : Memory)

@[simp] theorem length_strip : memory.strip.length = memorySize :=
  memory.cells.length_toList

theorem strip_blank : blank.strip = Strip.blank :=
  Vector.toList_replicate

/-- A block that fits takes the place of the bytes that were there. -/
theorem strip_store {origin : Nat} {block : List Byte}
    (fits : origin + block.length ≤ memorySize) :
    (memory.store origin block).strip = memory.strip.splice origin block := by
  induction block generalizing memory origin with
  | nil => simp [store, Strip.splice]
  | cons byte rest ih =>
      rw [List.length_cons] at fits
      have inside : origin < memory.strip.length := by
        rw [length_strip]
        omega
      have first : (Memory.mk (memory.cells.setIfInBounds origin byte)).strip =
          memory.strip.set origin byte :=
        Vector.toList_setIfInBounds
      rw [store, ih _ (by omega), first, Strip.splice_cons inside]

end Memory

/-! ## The byte written last -/

/-- The byte that an address received: the one that the command brought, unless it was refused. -/
def Exchange.given? (exchange : Exchange) (address : Nat) : Option Byte :=
  match exchange.command.block?, exchange.answer with
  | some (origin, block), .ok _ => if origin ≤ address then block[address - origin]? else none
  | _, _ => none

namespace Session

variable (session : Session) {command : Command}

/-! ## One command -/

theorem perform_writeByte_of_le {address : Nat} (outside : memorySize ≤ address) (byte : Byte) :
    (session.perform (.writeByte address byte)).value =
      ⟨session, .error (.outOfRange address)⟩ := by
  rw [perform, session.memory.writeByte_of_le outside]
  rfl

theorem perform_memoryByte_of_le {address : Nat} (outside : memorySize ≤ address) :
    (session.perform (.ask (.memoryByte address))).value =
      ⟨session, .error (.outOfRange address)⟩ := by
  rw [perform, answer, session.memory.readByte_of_le outside]
  rfl

theorem memory_tryRegisters (result : Except Fault Registers) :
    (session.tryRegisters result).session.memory = session.memory := by
  cases result <;> rfl

/-- A command that brings nothing leaves memory alone. -/
theorem memory_perform_of_none (kept : command ≠ .restore) (nothing : command.block? = none) :
    (session.perform command).value.session.memory = session.memory := by
  cases command with
  | restore => exact absurd rfl kept
  | load _ _ | writeByte _ _ | writeAt _ _ => cases nothing
  | step => exact session.memory_perform_step
  | setNamed _ _ | checkBit _ _ | setBit _ _ | clearBit _ _ => exact session.memory_tryRegisters _
  | _ => rfl

variable {origin : Nat} {block : List Byte}

/-- A command that brings a block stores it if it fits. -/
theorem perform_of_fits (brought : command.block? = some (origin, block))
    (fits : origin + block.length ≤ memorySize) :
    (session.perform command).value =
      done { session with memory := session.memory.store origin block } := by
  cases command with
  | load _ _ =>
      cases brought
      rw [perform, Traced.value_bind, Memory.value_load_of_fits _ fits]
      rfl
  | writeByte _ byte =>
      cases brought
      rw [perform, Memory.writeByte_of_lt _ fits]
      rfl
  | writeAt _ byte =>
      cases brought
      rw [perform, Memory.write_eq_store]
      rfl
  | _ => cases brought

theorem perform_load_of_overruns (overruns : memorySize < origin + block.length) :
    (session.perform (.load origin block)).value =
      ⟨session, .error (.outOfRange (min (origin + block.length) addressLimit - 1))⟩ := by
  rw [perform, Traced.value_bind, Memory.value_load_of_overruns _ overruns]
  rfl

/-- A command that brings a block is refused if the block does not fit. -/
theorem perform_of_overruns (brought : command.block? = some (origin, block))
    (overruns : memorySize < origin + block.length) :
    ∃ fault, (session.perform command).value = ⟨session, .error fault⟩ := by
  cases command with
  | load _ _ =>
      cases brought
      exact ⟨_, session.perform_load_of_overruns overruns⟩
  | writeByte _ byte =>
      cases brought
      exact ⟨_, session.perform_writeByte_of_le (Nat.le_of_lt_succ overruns) byte⟩
  | writeAt target byte =>
      cases brought
      exact absurd target.isLt (Nat.not_lt_of_le (Nat.le_of_lt_succ overruns))
  | _ => cases brought

/-- A command leaves the strip of memory as it leaves a strip. -/
theorem strip_perform (kept : command ≠ .restore) :
    (session.perform command).value.session.memory.strip = session.memory.strip.obey command := by
  cases brought : command.block? with
  | none => rw [session.memory_perform_of_none kept brought, Strip.obey, brought]
  | some placed =>
      obtain ⟨origin, block⟩ := placed
      by_cases fits : origin + block.length ≤ memorySize
      · simp only [Strip.obey, brought, if_pos fits]
        rw [session.perform_of_fits brought fits]
        exact session.memory.strip_store fits
      · obtain ⟨fault, refused⟩ := session.perform_of_overruns brought (Nat.lt_of_not_le fits)
        simp only [Strip.obey, brought, if_neg fits, refused]

/-- After a command an address holds the byte that it received, or else what it held before. -/
theorem read_perform (kept : command ≠ .restore) (address : Word) :
    let response := (session.perform command).value
    response.session.memory.read address =
      ((Exchange.mk command response.answer).given? address.toNat).getD
        (session.memory.read address) := by
  cases brought : command.block? with
  | none =>
      simp only [Exchange.given?, brought, Option.getD_none]
      rw [session.memory_perform_of_none kept brought]
  | some placed =>
      obtain ⟨origin, block⟩ := placed
      by_cases fits : origin + block.length ≤ memorySize
      · simp only [session.perform_of_fits brought fits, Exchange.given?, brought, done]
        rw [Memory.read_store]
        split <;> rfl
      · obtain ⟨fault, refused⟩ := session.perform_of_overruns brought (Nat.lt_of_not_le fits)
        simp only [refused, Exchange.given?, brought, Option.getD_none]

/-! ## Lists of commands -/

variable {commands : List Command}

theorem strip_performAll (kept : .restore ∉ commands) :
    (session.performAll commands).memory.strip = session.memory.strip.obeyAll commands := by
  induction commands generalizing session with
  | nil => rfl
  | cons command rest ih =>
      rw [List.mem_cons, not_or] at kept
      rw [performAll, List.foldl_cons, Strip.obeyAll, List.foldl_cons,
        ← session.strip_perform (Ne.symm kept.1)]
      exact ih _ kept.2

theorem read_performAll (kept : .restore ∉ commands) (address : Word) :
    (session.performAll commands).memory.read address =
      (latest? (·.given? address.toNat) (session.exchanges commands)).getD
        (session.memory.read address) := by
  refine view_performAll (fun session => session.memory.read address) (·.given? address.toNat)
    ?_ session
  intro session command isMember
  exact session.read_perform (fun same => kept (same ▸ isMember)) address

/-- Whatever blocks and bytes are written, refused or not, and whatever else is asked in between,
every address holds the byte that was written there last, and zero if none was. Only bringing back
an earlier memory is left out. Reading and writing beyond the bus fail and change nothing. -/
theorem memory_holds_last_given (cpu : Cpu) (kept : .restore ∉ commands) :
    let start : Session := { cpu }
    let session := start.performAll commands
    let last := fun address => (latest? (·.given? address) (start.exchanges commands)).getD 0
    (session.memory.strip = Strip.blank.obeyAll commands ∧
        (Strip.blank.obeyAll commands).length = 65536) ∧
      (∀ address : Word,
        (session.perform (.ask (.memoryAt address))).value =
            ⟨session, .ok (.byte (last address.toNat))⟩ ∧
          (session.perform (.ask (.memoryByte address.toNat))).value =
            ⟨session, .ok (.byte (last address.toNat))⟩) ∧
      ∀ (address : Nat) (byte : Byte),
        let writing := (session.perform (.writeByte address byte)).value
        let reading := (session.perform (.ask (.memoryByte address))).value
        ((∃ fault, writing.answer = .error fault) ↔ 65536 ≤ address) ∧
          (65536 ≤ address →
            writing = ⟨session, .error (.outOfRange address)⟩ ∧
              reading = ⟨session, .error (.outOfRange address)⟩) := by
  intro start session last
  have bytes : session.memory.strip = Strip.blank.obeyAll commands := by
    rw [← Memory.strip_blank]
    exact start.strip_performAll kept
  have held (address : Word) : session.memory.read address = last address.toNat := by
    have read := start.read_performAll kept address
    rwa [show start.memory = .blank from rfl, Memory.read_blank] at read
  refine ⟨⟨bytes, ?_⟩, ?_, ?_⟩
  · rw [← bytes]
    exact session.memory.length_strip
  · intro address
    rw [perform, perform, answer, answer, Memory.readByte_toNat, held]
    exact ⟨rfl, rfl⟩
  · intro address byte writing reading
    have brought : (Command.writeByte address byte).block? = some (address, [byte]) := rfl
    refine ⟨⟨?_, fun outside => ⟨.outOfRange address, ?_⟩⟩, fun outside => ⟨?_, ?_⟩⟩
    · rintro ⟨fault, refused⟩
      apply Nat.le_of_not_lt
      intro inside
      have written : writing = _ := session.perform_of_fits brought inside
      rw [written] at refused
      cases refused
    · exact congrArg Response.answer (session.perform_writeByte_of_le outside byte)
    · exact session.perform_writeByte_of_le outside byte
    · exact session.perform_memoryByte_of_le outside

/-- The second block lies over the first, and the third does not fit. -/
theorem memory_holds_last_given_overlapping :
    let commands : List Command :=
      [.load 0xFFFC [1, 2, 3, 4], .step, .load 0xFFFD [5, 6], .writeAt 0xFFFE 7, .run 9,
        .writeByte 0x10000 8, .load 0xFFFE [9, 10, 11]]
    let session := ({} : Session).performAll commands
    let read := fun address => (session.perform (.ask (.memoryAt address))).value.answer
    read 0xFFFC = .ok (.byte 1) ∧ read 0xFFFD = .ok (.byte 5) ∧ read 0xFFFE = .ok (.byte 7) ∧
      read 0xFFFF = .ok (.byte 4) ∧ read 0 = .ok (.byte 0) := by
  intro commands session read
  have kept : .restore ∉ commands := by simp [commands]
  obtain ⟨-, holds, -⟩ := memory_holds_last_given {} kept
  have reads (address : Word) {byte : Byte}
      (given : (latest? (·.given? address.toNat) (exchanges {} commands)).getD 0 = byte) :
      read address = .ok (.byte byte) := by
    rw [← given]
    exact congrArg Response.answer (holds address).1
  exact ⟨reads _ (by decide +kernel), reads _ (by decide +kernel), reads _ (by decide +kernel),
    reads _ (by decide +kernel), reads _ (by decide +kernel)⟩

end Session

end Sm83
