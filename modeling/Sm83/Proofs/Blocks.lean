import Sm83.Proofs.LastWriter

/-!
# Blocks are copied whole or not at all

A block that ends inside memory is copied, and one that would end beyond it is refused before any of
its bytes is written. Main statement: copying a block comes to writing its bytes one after another;
a refusal changes nothing and names an address that does not exist; and a session that starts with
a program holds that program as if it had been copied into blank memory.
-/

namespace Sm83

/-- The bytes of a block, each to be written to its own address. -/
def Command.writes (origin : Nat) (block : List Byte) : List Command :=
  (block.zipIdx origin).map fun (byte, address) => .writeByte address byte

theorem Command.writes_cons (origin : Nat) (byte : Byte) (rest : List Byte) :
    writes origin (byte :: rest) = .writeByte origin byte :: writes (origin + 1) rest := by
  rw [writes, List.zipIdx_cons, List.map_cons]
  rfl

namespace Session

variable (session : Session) {origin : Nat} {block : List Byte}

theorem perform_writeByte_of_lt {address : Nat} (inside : address < memorySize) (byte : Byte) :
    (session.perform (.writeByte address byte)).value =
      done { session with memory := session.memory.store address [byte] } :=
  session.perform_of_fits rfl inside

/-- Bytes written one after another are stored like a block. -/
theorem performAll_writes (fits : origin + block.length ≤ memorySize) :
    session.performAll (Command.writes origin block) =
      { session with memory := session.memory.store origin block } := by
  induction block generalizing origin session with
  | nil => rfl
  | cons byte rest ih =>
      rw [List.length_cons] at fits
      rw [Command.writes_cons, performAll, List.foldl_cons,
        session.perform_writeByte_of_lt (by omega)]
      exact ih _ (by omega)

/-- None of the bytes of a block that fits is refused. -/
theorem answer_of_mem_exchanges_writes (fits : origin + block.length ≤ memorySize) :
    ∀ exchange ∈ session.exchanges (Command.writes origin block),
      exchange.answer = .ok .nothing := by
  induction block generalizing origin session with
  | nil => exact List.forall_mem_nil _
  | cons byte rest ih =>
      rw [List.length_cons] at fits
      rw [Command.writes_cons, exchanges, session.perform_writeByte_of_lt (by omega),
        List.forall_mem_cons]
      exact ⟨rfl, ih _ (by omega)⟩

/-- A block is accepted if and only if it ends inside memory. -/
theorem load_accepted_iff (origin : Nat) (block : List Byte) :
    (∃ reply, (session.perform (.load origin block)).value.answer = .ok reply) ↔
      origin + block.length ≤ memorySize := by
  constructor
  · rintro ⟨reply, accepted⟩
    apply Nat.le_of_not_lt
    intro overruns
    rw [session.perform_load_of_overruns overruns] at accepted
    cases accepted
  · intro fits
    exact ⟨.nothing, congrArg Response.answer (session.perform_of_fits rfl fits)⟩

theorem map_answer_tryMemory (result : Except Fault Memory) :
    (session.tryMemory result).answer.map (fun _ => (session.tryMemory result).session) =
      result.map fun memory => { session with memory } := by
  cases result <;> rfl

/-- A session starts with its program as if that had been copied into blank memory. -/
theorem value_start_some (snapshot : Snapshot) (origin : Nat) (block : List Byte) :
    let blank : Session := { cpu := .ofSnapshot snapshot }
    let loaded := (blank.perform (.load origin block)).value
    (start snapshot (some (origin, block))).value =
      loaded.answer.map fun _ => loaded.session := by
  intro blank loaded
  exact (blank.map_answer_tryMemory (Memory.blank.load origin block).value).symm

theorem exists_map_eq_ok_iff {α β : Type} {result : Except Fault α} {f : α → β} :
    (∃ y, result.map f = .ok y) ↔ ∃ x, result = .ok x := by
  cases result <;> simp [Except.map]

/-- A stored block leaves the addresses before it and behind it alone. -/
theorem read_store_of_outside (memory : Memory) {address : Word}
    (outside : address.toNat < origin ∨ origin + block.length ≤ address.toNat) :
    (memory.store origin block).read address = memory.read address := by
  rw [Memory.read_store]
  rcases outside with before | behind
  · exact if_neg (Nat.not_le.mpr before)
  · have past : block.length ≤ address.toNat - origin := by omega
    rw [if_pos (by omega), List.getElem?_eq_none past, Option.getD_none]

/-- Copying a block that ends inside memory comes to writing its bytes in order, and leaves every
other address alone. A block that would end beyond memory is refused with an address that does not
exist: the one before its end, or the last of the wide ones. -/
theorem load_exact (snapshot : Snapshot) (origin : Nat) (block : List Byte) :
    let stop := origin + block.length
    let writes := Command.writes origin block
    let response := (session.perform (.load origin block)).value
    let reported := if 0x10000000000000000 ≤ stop then 0xFFFFFFFFFFFFFFFF else stop - 1
    let blank : Session := { cpu := .ofSnapshot snapshot }
    let loaded := (blank.perform (.load origin block)).value
    let started := (start snapshot (some (origin, block))).value
    ((∃ reply, response.answer = .ok reply) ↔ stop ≤ 65536) ∧
      (stop ≤ 65536 →
        response = (session.performAll writes).done ∧
          (∀ exchange ∈ session.exchanges writes, exchange.answer = .ok .nothing) ∧
          ∀ address : Word, address.toNat < origin ∨ stop ≤ address.toNat →
            response.session.memory.read address = session.memory.read address) ∧
      (65536 < stop → response = ⟨session, .error (.outOfRange reported)⟩ ∧ 0xFFFF < reported) ∧
      ((∃ ready, started = .ok ready) ↔ stop ≤ 65536) ∧
      started = loaded.answer.map (fun _ => loaded.session) ∧
      ∀ address, blank.memory.read address = 0 := by
  intro stop writes response reported blank loaded started
  refine ⟨session.load_accepted_iff origin block, ?copied, ?refused, ?ready,
    value_start_some snapshot origin block, Memory.read_blank⟩
  case copied =>
    intro fits
    have copied : response = done { session with memory := session.memory.store origin block } :=
      session.perform_of_fits rfl fits
    refine ⟨?_, session.answer_of_mem_exchanges_writes fits, ?_⟩
    · rw [copied, session.performAll_writes fits]
    · intro address outside
      rw [copied]
      exact read_store_of_outside session.memory outside
  case refused =>
    intro overruns
    have same : min stop addressLimit - 1 = reported := by
      by_cases wide : addressLimit ≤ stop
      · rw [Nat.min_eq_right wide]
        exact (if_pos wide).symm
      · rw [Nat.min_eq_left (Nat.le_of_not_le wide)]
        exact (if_neg wide).symm
    constructor
    · rw [← same]
      exact session.perform_load_of_overruns overruns
    · rw [← same, addressLimit]
      omega
  case ready =>
    have same : started = loaded.answer.map fun _ => loaded.session :=
      value_start_some snapshot origin block
    rw [same, exists_map_eq_ok_iff]
    exact blank.load_accepted_iff origin block

/-- An empty block may end where memory ends. One byte more is refused, and so is every block
behind that, up to the last wide address and beyond it. -/
theorem load_exact_at_limits :
    let session : Session := {}
    let load := fun origin block => (session.perform (.load origin block)).value
    (∃ reply, (load 0x10000 []).answer = .ok reply) ∧
      load 0xFFFF [1, 2] = ⟨session, .error (.outOfRange 0x10000)⟩ ∧
      load 0xFFFFFFFFFFFFFFFE [1] = ⟨session, .error (.outOfRange 0xFFFFFFFFFFFFFFFE)⟩ ∧
      load 0xFFFFFFFFFFFFFFFF [1] = ⟨session, .error (.outOfRange 0xFFFFFFFFFFFFFFFF)⟩ := by
  intro session load
  obtain ⟨empty, -⟩ := session.load_exact {} 0x10000 []
  obtain ⟨-, -, past, -⟩ := session.load_exact {} 0xFFFF [1, 2]
  obtain ⟨-, -, last, -⟩ := session.load_exact {} 0xFFFFFFFFFFFFFFFE [1]
  obtain ⟨-, -, wide, -⟩ := session.load_exact {} 0xFFFFFFFFFFFFFFFF [1]
  exact ⟨empty.mpr (by decide), (past (by decide)).1, (last (by decide)).1, (wide (by decide)).1⟩

end Session

end Sm83
