import Sm83.Proofs.Execution

/-!
# The log of a run

Every step of a run writes one record, before anything else happens in the run. Main statement:
the records are those of the executed instructions, one by one and in order, each with the address
before its step and the register pairs after it, and at last the report of the opcode that ended
the run, if one did.
-/

namespace Sm83

namespace Record

/-- The clock cycles of which a record tells. -/
def cycles : Record → Nat
  | executed _ _ operation _ => operation.cycles
  | _ => 0

/-- The four pairs as a record shows them. -/
def shownPairs (registers : Registers) : String :=
  " ".intercalate
    [ "AF=" ++ Text.markedHex 4 (registers.getPair .af).toNat,
      "BC=" ++ Text.markedHex 4 (registers.getPair .bc).toNat,
      "DE=" ++ Text.markedHex 4 (registers.getPair .de).toNat,
      "HL=" ++ Text.markedHex 4 (registers.getPair .hl).toNat ]

/-- A record that tells of the step from one state to another: where the instruction stands, its
first byte, the operation, its cycles, and the register pairs that it leaves. -/
structure TellsStep (record : Record) (bus : Bus) (before after : Cpu) (operation : Operation) :
    Prop where
  found : (bus.opcodeAt before.pc).decode = some operation
  stepped : (before.step bus).value = .ok ⟨after, operation.cycles⟩
  entry : record = .executed before.pc (bus.opcodeAt before.pc) operation after.registers
  level : record.level = .trace
  text : record.text =
    "PC=" ++ Text.markedHex 4 before.pc.toNat ++ " op=" ++ Text.markedHex 2 (bus before.pc).toNat
      ++ " " ++ operation.text ++ " cycles=" ++ Nat.repr operation.cycles ++ " "
      ++ shownPairs after.registers

/-- A record that tells of a fault: the opcode and the address that the fault names, and the
register pairs as they are. -/
structure TellsFault (record : Record) (opcode pc : Word) (final : Cpu) : Prop where
  entry : ∃ code : Opcode, record = .unimplemented pc code final.registers ∧ code.number = opcode
  level : record.level = .error
  text : record.text =
    "GB CPU: unimplemented opcode " ++ Text.markedHex 2 opcode.toNat ++ " at PC="
      ++ Text.markedHex 4 pc.toNat ++ " (" ++ shownPairs final.registers ++ ")"

theorem pairsText_eq (registers : Registers) : pairsText registers = shownPairs registers := by
  have names : Pair.all.map (fun pair => pair.name.map Char.toUpper) =
      ["AF", "BC", "DE", "HL"] := by
    decide +kernel
  simp only [Pair.all, List.map_cons, List.map_nil, List.cons.injEq, and_true] at names
  obtain ⟨af, bc, de, hl⟩ := names
  simp only [pairsText, shownPairs, Pair.all, List.map_cons, List.map_nil, af, bc, de, hl]
  rfl

end Record

theorem Bus.first_opcodeAt (bus : Bus) (address : Word) :
    (bus.opcodeAt address).first = bus address := by
  rw [opcodeAt, value_readOpcode]
  split
  · next extended => exact extended.symm
  · rfl

/-- The clock cycles of which records tell, all together. -/
def loggedCycles : List Record → Nat
  | [] => 0
  | record :: rest => record.cycles + loggedCycles rest

theorem loggedCycles_append (first second : List Record) :
    loggedCycles (first ++ second) = loggedCycles first + loggedCycles second := by
  induction first with
  | nil => exact (Nat.zero_add _).symm
  | cons record rest ih => rw [List.cons_append, loggedCycles, loggedCycles, ih, Nat.add_assoc]

private theorem getElem?_append_last {records : List Record} {last : Record} {count : Nat}
    (length : records.length = count) :
    (records ++ [last])[count]? = some last :=
  length ▸ List.getElem?_concat_length

/-! ## One step -/

variable {bus : Bus} {cpu : Cpu}

theorem Record.tellsStep_executed {operation : Operation}
    (found : (bus.opcodeAt cpu.pc).decode = some operation) :
    let after := cpu.perform operation (bus.immediateAt cpu.pc operation)
    (Record.executed cpu.pc (bus.opcodeAt cpu.pc) operation after.registers).TellsStep bus cpu
      after operation where
  found := found
  stepped := Cpu.value_step_of_some found
  entry := rfl
  level := rfl
  text := by
    rw [← Bus.first_opcodeAt bus cpu.pc, ← Record.pairsText_eq]
    rfl

/-- The next instruction stands behind the bytes of the one of which a record tells. -/
theorem Record.TellsStep.toNat_pc {record : Record} {before after : Cpu} {operation : Operation}
    (tells : record.TellsStep bus before after operation) :
    after.pc.toNat = (before.pc.toNat + operation.length) % 65536 := by
  rw [Cpu.eq_perform_of_stepped tells.found tells.stepped, Cpu.perform, BitVec.toNat_add,
    BitVec.toNat_ofNat, Nat.add_mod_mod]

theorem Record.tellsFault_unimplemented (code : Opcode) (pc : Word) (final : Cpu) :
    (Record.unimplemented pc code final.registers).TellsFault code.number pc final where
  entry := ⟨code, rfl, rfl⟩
  level := rfl
  text := by
    rw [← Record.pairsText_eq]
    rfl

/-- A step adds to the counter what it adds to the log. -/
theorem Run.cycles_eq_loggedCycles_advance {run : Run}
    (counted : run.cycles = BitVec.ofNat 64 (loggedCycles run.records)) :
    (run.advance bus).cycles = BitVec.ofNat 64 (loggedCycles (run.advance bus).records) := by
  cases ended : run.fault with
  | some fault =>
      rw [advance_of_fault ended]
      exact counted
  | none =>
      rw [records_advance ended, loggedCycles_append, BitVec.ofNat_add, ← counted]
      cases decoded : (bus.opcodeAt run.cpu.pc).decode with
      | none =>
          rw [advance_of_none ended decoded, Cpu.records_step_of_none decoded]
          exact (BitVec.add_zero _).symm
      | some operation =>
          rw [advance_of_some ended decoded, Cpu.records_step_of_some decoded]
          rfl

/-! ## Whole runs -/

theorem Cpu.cycles_run_eq_loggedCycles (cpu : Cpu) (bus : Bus) (limit : Nat) :
    (cpu.run bus limit).cycles = BitVec.ofNat 64 (loggedCycles (cpu.run bus limit).records) :=
  Run.proceed_induction
    (motive := fun run => run.cycles = BitVec.ofNat 64 (loggedCycles run.records))
    (fun _ counted => Run.cycles_eq_loggedCycles_advance counted) limit rfl

/-- Each step that succeeds adds its record. -/
theorem Cpu.records_run_succ {limit : Nat} {operation : Operation}
    (going : (cpu.run bus limit).fault = none)
    (found : (bus.opcodeAt (cpu.run bus limit).cpu.pc).decode = some operation) :
    ∃ record, (cpu.run bus (limit + 1)).records = (cpu.run bus limit).records ++ [record] ∧
      record.TellsStep bus (cpu.run bus limit).cpu (cpu.run bus (limit + 1)).cpu operation := by
  have added := congrArg ((cpu.run bus limit).records ++ ·) (records_step_of_some found)
  rw [run_succ]
  refine ⟨_, (Run.records_advance going).trans added, ?_⟩
  rw [Run.advance_of_some going found]
  exact Record.tellsStep_executed found

/-- A run without fault has written one record for each of its steps. -/
theorem Cpu.records_run_of_going {limit : Nat} (going : (cpu.run bus limit).fault = none) :
    (cpu.run bus limit).records.length = limit ∧
      ∀ i, i < limit → ∃ operation record, (cpu.run bus limit).records[i]? = some record ∧
        record.TellsStep bus (cpu.run bus i).cpu (cpu.run bus (i + 1)).cpu operation ∧
        (cpu.run bus (i + 1)).cpu.pc.toNat =
          ((cpu.run bus i).cpu.pc.toNat + operation.length) % 65536 := by
  induction limit with
  | zero => exact ⟨rfl, fun i inside => absurd inside i.not_lt_zero⟩
  | succ limit ih =>
      rw [run_succ] at going
      have before := Run.going_of_advance going
      obtain ⟨length, told⟩ := ih before
      cases decoded : (bus.opcodeAt (cpu.run bus limit).cpu.pc).decode with
      | none =>
          rw [Run.advance_of_none before decoded] at going
          cases going
      | some operation =>
          obtain ⟨last, records, tells⟩ := records_run_succ before decoded
          rw [records]
          refine ⟨by rw [List.length_append, length]; rfl, ?_⟩
          intro i inside
          obtain earlier | rfl := Nat.lt_succ_iff_lt_or_eq.mp inside
          · rw [List.getElem?_append_left (length.symm ▸ earlier)]
            exact told i earlier
          · exact ⟨operation, last, getElem?_append_last length, tells, tells.toNat_pc⟩

/-- A run that meets a step that fails has written the records of the steps before it, and one that
tells of the fault. -/
theorem Cpu.records_run_of_fails {limit count : Nat} {final : Cpu} {fault : Fault}
    (fails : FailsAfter bus cpu count final fault) (inside : count < limit) :
    (cpu.run bus count).fault = none ∧ (cpu.run bus count).cpu = final ∧
      (cpu.run bus limit).cpu = final ∧ (cpu.run bus limit).fault = some fault ∧
      ∃ opcode pc record, fault = .unimplemented opcode pc ∧
        (cpu.run bus limit).records = (cpu.run bus count).records ++ [record] ∧
        record.TellsFault opcode pc final := by
  obtain ⟨reached, going, last⟩ := run_of_fails fails inside
  obtain ⟨gap, named⟩ := gap_of_refused fails.refused
  have stopped := Run.advance_of_refused going (reached ▸ fails.refused)
  have added := congrArg ((cpu.run bus count).records ++ ·) (records_step_of_none gap)
  have records : (cpu.run bus limit).records =
      (cpu.run bus count).records ++ (final.step bus).records := by
    rw [last, Run.records_advance going, reached]
  refine ⟨going, reached, ?_, ?_, _, _, _, named, records.trans added,
    Record.tellsFault_unimplemented _ _ _⟩
  · rw [last, stopped]
    exact reached
  · rw [last, stopped]

/-- The log of a run is its trace: one record for each step that succeeds, in their order, and then
the report of the opcode that ended the run, exactly if the run returns a fault. The cycles of which
the records tell add up to those that the run returns. -/
theorem Cpu.records_run (cpu : Cpu) (bus : Bus) (limit : Nat) :
    let run := cpu.run bus limit
    ∃ count,
      ((cpu.run bus 0).cpu = cpu ∧
        ∀ i, i < count → ∃ operation record, run.records[i]? = some record ∧
          record.TellsStep bus (cpu.run bus i).cpu (cpu.run bus (i + 1)).cpu operation ∧
          (cpu.run bus (i + 1)).cpu.pc.toNat =
            ((cpu.run bus i).cpu.pc.toNat + operation.length) % 65536) ∧
      (∀ total, run.outcome = .ok total →
        count = limit ∧ run.records.length = count ∧
          (loggedCycles run.records < 0x10000000000000000 →
            total.toNat = loggedCycles run.records)) ∧
      ∀ fault, run.outcome = .error fault →
        count < limit ∧ run.records.length = count + 1 ∧
          (cpu.run bus count).cpu = run.cpu ∧ (run.cpu.step bus).value = .error fault ∧
          ∃ opcode pc record, fault = .unimplemented opcode pc ∧
            run.records[count]? = some record ∧ record.TellsFault opcode pc run.cpu := by
  intro run
  obtain ⟨operations, final, rfl, executes⟩ | ⟨count, final, fault, inside, fails⟩ :=
    executes_or_fails bus limit cpu
  · obtain ⟨-, going, -⟩ : _ ∧ run.fault = none ∧ _ := run_of_executes executes
    obtain ⟨length, told⟩ := records_run_of_going going
    refine ⟨operations.length, ⟨rfl, told⟩, ?_, ?_⟩
    · intro total outcome
      obtain ⟨-, rfl⟩ := Run.outcome_eq_ok_iff.mp outcome
      refine ⟨rfl, length, ?_⟩
      intro small
      rw [cycles_run_eq_loggedCycles, BitVec.toNat_ofNat, Nat.mod_eq_of_lt small]
    · intro fault outcome
      rw [Run.outcome_eq_error_iff, going] at outcome
      cases outcome
  · obtain ⟨going, reached, stays, stopped, opcode, pc, last, named, records, tells⟩ :=
      records_run_of_fails fails inside
    obtain ⟨length, told⟩ := records_run_of_going going
    refine ⟨count, ⟨rfl, ?_⟩, ?_, ?_⟩
    · intro i inside
      rw [records, List.getElem?_append_left (length.symm ▸ inside)]
      exact told i inside
    · intro total outcome
      rw [Run.outcome_eq_ok_iff, stopped] at outcome
      cases outcome.1
    · intro found outcome
      obtain rfl : fault = found :=
        Option.some.inj (stopped.symm.trans (Run.outcome_eq_error_iff.mp outcome))
      refine ⟨inside, ?_, reached.trans stays.symm, stays ▸ fails.refused, opcode, pc, last,
        named, ?_, stays ▸ tells⟩
      · rw [records, List.length_append, length]
        rfl
      · rw [records]
        exact getElem?_append_last length

/-- An exchange of halves whose two bytes stand on both sides of the end of the bus, and a gap
behind it. -/
theorem Cpu.records_run_at_gap :
    let bus : Bus := fun address =>
      if address = 1 then 0x34 else if address = 0 then 0x37 else 0xCB
    let cpu : Cpu := ⟨{ a := 0x12 }, 0xFFFF⟩
    let final : Cpu := ⟨{ a := 0x21 }, 1⟩
    let records := (cpu.run bus 4).records
    (cpu.run bus 4).outcome = .error (.unimplemented 0x34 1) ∧ records.length = 2 ∧
      (∃ record, records[0]? = some record ∧
        record.TellsStep bus cpu final (.shift .swap .a)) ∧
      ∃ record, records[1]? = some record ∧ record.TellsFault 0x34 1 final ∧
        record.text = "GB CPU: unimplemented opcode 0x34 at PC=0x0001 " ++
          "(AF=0x2100 BC=0x0000 DE=0x0000 HL=0x0000)" := by
  intro bus cpu final records
  have outcome : (cpu.run bus 4).outcome = .error (.unimplemented 0x34 1) :=
    Run.outcome_eq_error_iff.mpr (by decide +kernel)
  have two : records.length = 2 := by decide +kernel
  have reached : (cpu.run bus 1).cpu = final := by decide +kernel
  have swap : (bus.opcodeAt cpu.pc).decode = some (.shift .swap .a) := by decide +kernel
  obtain ⟨count, ⟨-, told⟩, -, ends⟩ := Cpu.records_run cpu bus 4
  obtain ⟨-, length, stays, -, opcode, pc, last, named, listed, tells⟩ := ends _ outcome
  obtain rfl : count = 1 := Nat.succ.inj (length.symm.trans two)
  obtain ⟨operation, first, firstListed, firstTells, -⟩ := told 0 (by decide)
  obtain rfl : Operation.shift .swap .a = operation :=
    Option.some.inj (swap.symm.trans firstTells.found)
  cases named
  rw [reached] at firstTells
  rw [← stays, reached] at tells
  refine ⟨outcome, two, ⟨first, firstListed, firstTells⟩, last, listed, tells, ?_⟩
  rw [tells.text]
  decide +kernel

end Sm83
