import Sm83.Operation.Perform

/-!
# What operations read and write

The registers consist of seven bytes and four flags, here called locations. Tables list for every
operation the locations at which it looks and those that it does not keep. Main statements: an
operation keeps every location that it is not listed to write, and what it writes depends on the
locations that it reads alone.
-/

namespace Sm83

/-- A byte register or a single flag. -/
inductive Location where
  | register (register : DataRegister)
  | flag (flag : Flag)
  deriving DecidableEq, Repr

/-! ## The tables -/

/-- The registers from which a byte operand is taken. -/
def Source.registers : Source → List DataRegister
  | register name => [name]
  | immediate => []

namespace Operation

/-- The byte registers at which an operation looks. -/
def sources : Operation → List DataRegister
  | nop | loadPair _ | setCarry | complementCarry => []
  | load _ source => source.registers
  | arithmetic _ source => .a :: source.registers
  | incrementPair pair | decrementPair pair => [pair.high, pair.low]
  | addHl source => [.h, .l, source.high, source.low]
  | rotateA _ | adjustDecimal | complementA => [.a]
  | increment register | decrement register | shift _ register => [register]
  | checkBit _ register | clearBit _ register | setBit _ register => [register]

/-- The byte registers in which an operation stores. -/
def destinations : Operation → List DataRegister
  | nop | setCarry | complementCarry | arithmetic .cp _ | checkBit _ _ => []
  | load destination _ => [destination]
  | loadPair pair | incrementPair pair | decrementPair pair => [pair.high, pair.low]
  | addHl _ => [.h, .l]
  | arithmetic _ _ | rotateA _ | adjustDecimal | complementA => [.a]
  | increment register | decrement register | shift _ register => [register]
  | clearBit _ register | setBit _ register => [register]

/-- The flags at which an operation looks. -/
def flagsRead : Operation → List Flag
  | arithmetic _ _ | rotateA _ | shift _ _ | complementCarry => [.carry]
  | adjustDecimal => [.subtract, .halfCarry, .carry]
  | _ => []

/-- The flags that an operation does not keep. -/
def flagsWritten : Operation → List Flag
  | nop | load _ _ | loadPair _ | incrementPair _ | decrementPair _ => []
  | clearBit _ _ | setBit _ _ => []
  | increment _ | decrement _ | checkBit _ _ => [.zero, .subtract, .halfCarry]
  | complementA => [.subtract, .halfCarry]
  | setCarry | complementCarry => [.halfCarry, .carry]
  | addHl _ => [.subtract, .halfCarry, .carry]
  | adjustDecimal => [.zero, .halfCarry, .carry]
  | arithmetic _ _ | rotateA _ | shift _ _ => [.zero, .subtract, .halfCarry, .carry]

/-- Whether an operation keeps all flags. -/
def keepsFlags (operation : Operation) : Bool := operation.flagsWritten.isEmpty

/-- The locations at which an operation looks. -/
def reads (operation : Operation) : List Location :=
  operation.sources.map .register ++ operation.flagsRead.map .flag

/-- The locations that an operation does not keep. -/
def writes (operation : Operation) : List Location :=
  operation.destinations.map .register ++ operation.flagsWritten.map .flag

variable {operation : Operation} {register : DataRegister} {flag : Flag}

theorem not_mem_flagsWritten (keeps : operation.keepsFlags) :
    flag ∉ operation.flagsWritten := by
  rw [List.isEmpty_iff.mp keeps]
  exact List.not_mem_nil

/-- An operation that keeps all flags looks at none. -/
theorem not_mem_flagsRead (keeps : operation.keepsFlags) : flag ∉ operation.flagsRead := by
  cases operation with
  | arithmetic _ _ | rotateA _ | shift _ _ | complementCarry | adjustDecimal => cases keeps
  | _ => exact List.not_mem_nil

@[simp] theorem register_mem_reads :
    .register register ∈ operation.reads ↔ register ∈ operation.sources := by
  simp [reads]

@[simp] theorem flag_mem_reads : .flag flag ∈ operation.reads ↔ flag ∈ operation.flagsRead := by
  simp [reads]

@[simp] theorem register_mem_writes :
    .register register ∈ operation.writes ↔ register ∈ operation.destinations := by
  simp [writes]

@[simp] theorem flag_mem_writes :
    .flag flag ∈ operation.writes ↔ flag ∈ operation.flagsWritten := by
  simp [writes]

end Operation

/-! ## Contents of locations -/

theorem Flags.ext_get {flags other : Flags} (same : ∀ flag, flags.get flag = other.get flag) :
    flags = other := by
  rw [Flags.mk.injEq]
  exact ⟨same .zero, same .subtract, same .halfCarry, same .carry⟩

namespace Registers

variable {registers other : Registers} {changed register : DataRegister} {pair : DataPair}
  {byte value : Byte} {word content : Word} {flags otherFlags : Flags}

/-- What a location holds. -/
def view (registers : Registers) : Location → Byte ⊕ Bool
  | .register register => .inl (registers.get register)
  | .flag flag => .inr (registers.flags.get flag)

/-- Registers whose locations hold the same are equal. -/
theorem ext_view (same : ∀ location, registers.view location = other.view location) :
    registers = other := by
  have bytes (register : DataRegister) : registers.get register = other.get register :=
    Sum.inl.inj (same (.register register))
  have flags : registers.flags = other.flags :=
    Flags.ext_get fun flag => Sum.inr.inj (same (.flag flag))
  apply ext_get
  intro register
  by_cases data : register = .f
  · rw [data, get, get, flags]
  · obtain ⟨named, rfl⟩ := DataRegister.exists_toRegister data
    exact bytes named

theorem get_withFlags (registers : Registers) (flags : Flags) (register : DataRegister) :
    ({ registers with flags } : Registers).get register = registers.get register :=
  registers.get_withFlags_of_ne_f register.toRegister_ne_f flags

theorem get_set_data (registers : Registers) (changed register : DataRegister) (byte : Byte) :
    (registers.set changed byte).get register =
      if register = changed then byte else registers.get register := by
  by_cases same : register = changed
  · rw [if_pos same, same, get_set_self, DataRegister.keep_toRegister]
  · rw [if_neg same, get_set_of_ne]
    exact fun alike => same (DataRegister.toRegister_injective alike)

theorem get_setPair_data (registers : Registers) (pair : DataPair) (register : DataRegister)
    (word : Word) :
    (registers.setPair pair word).get register =
      if register = pair.low then lowByte word
      else if register = pair.high then highByte word
      else registers.get register := by
  rw [setPair, DataPair.low_toPair, DataPair.high_toPair, get_set_data, get_set_data]

theorem flags_setPair_data (registers : Registers) (pair : DataPair) (word : Word) :
    (registers.setPair pair word).flags = registers.flags := by
  rw [setPair, DataPair.low_toPair, DataPair.high_toPair, flags_set_data, flags_set_data]

theorem flags_combine (registers : Registers) (op : ByteOp) (destination : Register)
    (operand : Byte) :
    (registers.combine op destination operand).flags =
      (op.eval (registers.get destination) operand registers.flags.carry).flags := by
  cases op <;> rfl

theorem get_addPair_data (registers : Registers) (source destination : Pair)
    (register : DataRegister) :
    let sum := Carried.add (registers.getPair destination) (registers.getPair source) false
    (registers.addPair source destination).get register =
      (registers.setPair destination sum.value).get register :=
  get_withFlags _ _ register

/-! What is stored in listed registers reaches no other, and is found there again. -/

theorem get_set_of_not_mem (free : register ∉ [changed]) :
    (registers.set changed byte).get register = registers.get register := by
  rw [get_set_data, if_neg (List.ne_of_not_mem_cons free)]

theorem get_setWithFlags_of_not_mem (free : register ∉ [changed]) :
    (registers.setWithFlags changed byte flags).get register = registers.get register :=
  (get_withFlags _ flags register).trans (get_set_of_not_mem free)

theorem get_setPair_of_not_mem (pair : DataPair) (free : register ∉ [pair.high, pair.low]) :
    (registers.setPair pair word).get register = registers.get register := by
  have high := List.ne_of_not_mem_cons free
  have low := List.ne_of_not_mem_cons (List.not_mem_of_not_mem_cons free)
  rw [get_setPair_data, if_neg low, if_neg high]

theorem get_set_congr (same : byte = value) (written : register ∈ [changed]) :
    (registers.set changed byte).get register = (other.set changed value).get register := by
  rw [get_set_data, get_set_data, if_pos (List.mem_singleton.mp written),
    if_pos (List.mem_singleton.mp written), same]

theorem get_setWithFlags_congr (same : byte = value) (written : register ∈ [changed]) :
    (registers.setWithFlags changed byte flags).get register =
      (other.setWithFlags changed value otherFlags).get register :=
  (get_withFlags _ flags register).trans
    ((get_set_congr same written).trans (get_withFlags _ otherFlags register).symm)

theorem get_setPair_congr (pair : DataPair) (same : word = content)
    (written : register ∈ [pair.high, pair.low]) :
    (registers.setPair pair word).get register = (other.setPair pair content).get register := by
  rw [get_setPair_data, get_setPair_data, same]
  obtain rfl | low := List.mem_cons.mp written
  · rw [if_pos rfl, if_pos rfl]
  · rw [if_pos (List.mem_singleton.mp low), if_pos (List.mem_singleton.mp low)]

end Registers

/-! ## What operations keep -/

namespace Operation

variable {operation : Operation} {immediate : Word} {registers other : Registers}

theorem get_perform_of_not_mem {register : DataRegister}
    (free : register ∉ operation.destinations) :
    (operation.perform immediate registers).get register = registers.get register := by
  cases operation with
  | nop => rfl
  | setCarry | complementCarry => exact registers.get_withFlags _ register
  | checkBit position checked => exact registers.get_withFlags _ register
  | load destination source => exact Registers.get_set_of_not_mem free
  | clearBit position changed | setBit position changed =>
      exact Registers.get_set_of_not_mem free
  | loadPair pair | incrementPair pair | decrementPair pair =>
      exact Registers.get_setPair_of_not_mem pair free
  | addHl source =>
      rw [perform, Registers.get_addPair_data]
      exact Registers.get_setPair_of_not_mem .hl free
  | arithmetic op source =>
      cases op with
      | cp => exact registers.get_withFlags _ register
      | _ => exact Registers.get_setWithFlags_of_not_mem free
  | rotateA rotation => exact Registers.get_setWithFlags_of_not_mem free
  | adjustDecimal | complementA =>
      exact Registers.get_setWithFlags_of_not_mem free
  | increment changed | decrement changed => exact Registers.get_setWithFlags_of_not_mem free
  | shift kind changed => exact Registers.get_setWithFlags_of_not_mem free

theorem flag_perform_of_not_mem {flag : Flag} (free : flag ∉ operation.flagsWritten) :
    (operation.perform immediate registers).flags.get flag = registers.flags.get flag := by
  cases operation with
  | nop => rfl
  | load destination source =>
      rw [perform, Registers.flags_set_data]
  | clearBit position changed => rw [perform, Registers.clearBit, Registers.flags_set_data]
  | setBit position changed => rw [perform, Registers.setBit, Registers.flags_set_data]
  | loadPair pair => rw [perform, Registers.flags_setPair_data]
  | incrementPair pair =>
      rw [perform, Registers.incrementPair, Registers.flags_setPair_data]
  | decrementPair pair =>
      rw [perform, Registers.decrementPair, Registers.flags_setPair_data]
  | increment changed | decrement changed =>
      cases flag with
      | carry => rfl
      | _ => simp [flagsWritten] at free
  | checkBit position checked =>
      cases flag with
      | carry => rfl
      | _ => simp [flagsWritten] at free
  | complementA =>
      cases flag with
      | zero | carry => rfl
      | _ => simp [flagsWritten] at free
  | setCarry | complementCarry =>
      cases flag with
      | zero | subtract => rfl
      | _ => simp [flagsWritten] at free
  | addHl source =>
      cases flag with
      | zero => rfl
      | _ => simp [flagsWritten] at free
  | adjustDecimal =>
      cases flag with
      | subtract => rfl
      | _ => simp [flagsWritten] at free
  | arithmetic op source | shift kind changed => cases flag <;> simp [flagsWritten] at free
  | rotateA rotation => cases flag <;> simp [flagsWritten] at free

/-- An operation keeps every location that it is not listed to write. -/
theorem view_perform_of_not_mem {location : Location} (free : location ∉ operation.writes) :
    (operation.perform immediate registers).view location = registers.view location := by
  cases location with
  | register register =>
      exact congrArg Sum.inl (get_perform_of_not_mem (mt register_mem_writes.mpr free))
  | flag flag => exact congrArg Sum.inr (flag_perform_of_not_mem (mt flag_mem_writes.mpr free))

end Operation

/-! ## What operations depend on -/

/-- Adjustment looks at three flags only. -/
theorem decimalAdjustment_congr (value : Byte) {flags other : Flags}
    (same : ∀ flag ∈ [Flag.subtract, .halfCarry, .carry], flags.get flag = other.get flag) :
    decimalAdjustment value flags = decimalAdjustment value other := by
  have subtract : flags.subtract = other.subtract := same .subtract (by simp)
  have halfCarry : flags.halfCarry = other.halfCarry := same .halfCarry (by simp)
  have carry : flags.carry = other.carry := same .carry (by simp)
  rw [decimalAdjustment, decimalAdjustment, subtract, halfCarry, carry]

theorem Source.operand_congr {source : Source} {immediate : Word} {registers other : Registers}
    (same : ∀ register ∈ source.registers, registers.get register = other.get register) :
    source.operand immediate registers = source.operand immediate other := by
  cases source with
  | register name => exact same name (.head _)
  | immediate => rfl

namespace Operation

variable {operation : Operation} {immediate : Word} {registers other : Registers}

/-- Agreement of two register contents wherever an operation looks. -/
structure SeesSame (operation : Operation) (registers other : Registers) : Prop where
  get : ∀ register ∈ operation.sources, registers.get register = other.get register
  flag : ∀ flag ∈ operation.flagsRead, registers.flags.get flag = other.flags.get flag

namespace SeesSame

theorem of_view
    (same : ∀ location ∈ operation.reads, registers.view location = other.view location) :
    SeesSame operation registers other where
  get register read := Sum.inl.inj (same (.register register) (register_mem_reads.mpr read))
  flag flag read := Sum.inr.inj (same (.flag flag) (flag_mem_reads.mpr read))

theorem a (same : SeesSame operation registers other) (read : .a ∈ operation.sources) :
    registers.a = other.a :=
  same.get .a read

theorem carry (same : SeesSame operation registers other)
    (read : .carry ∈ operation.flagsRead) : registers.flags.carry = other.flags.carry :=
  same.flag .carry read

theorem pair (same : SeesSame operation registers other) (pair : DataPair)
    (high : pair.high ∈ operation.sources) (low : pair.low ∈ operation.sources) :
    registers.getPair pair = other.getPair pair := by
  rw [Registers.getPair, Registers.getPair, DataPair.high_toPair, DataPair.low_toPair,
    same.get _ high, same.get _ low]

/-- Both words of an addition to HL. -/
theorem words {source : DataPair} (same : SeesSame (.addHl source) registers other) :
    registers.getPair .hl = other.getPair .hl ∧
      registers.getPair source = other.getPair source :=
  ⟨same.pair .hl (.head _) (.tail _ (.head _)),
    same.pair source (by simp [sources]) (by simp [sources])⟩

theorem operand {op : ByteOp} {source : Source}
    (same : SeesSame (.arithmetic op source) registers other) :
    source.operand immediate registers = source.operand immediate other :=
  Source.operand_congr fun register read => same.get register (.tail _ read)

theorem result {op : ByteOp} {source : Source}
    (same : SeesSame (.arithmetic op source) registers other) :
    op.eval (registers.get .a) (source.operand immediate registers) registers.flags.carry =
      op.eval (other.get .a) (source.operand immediate other) other.flags.carry := by
  have left : registers.get .a = other.get .a := same.get .a (.head _)
  rw [left, same.operand, same.carry (.head _)]

end SeesSame

/-- What an operation stores depends on the registers and flags at which it looks. -/
theorem get_perform_congr (same : SeesSame operation registers other)
    {register : DataRegister} (written : register ∈ operation.destinations) :
    (operation.perform immediate registers).get register =
      (operation.perform immediate other).get register := by
  cases operation with
  | nop | setCarry | complementCarry => cases written
  | checkBit position checked => cases written
  | load destination source =>
      exact Registers.get_set_congr (Source.operand_congr same.get) written
  | loadPair pair => exact Registers.get_setPair_congr pair rfl written
  | incrementPair pair =>
      have word := same.pair pair (.head _) (.tail _ (.head _))
      exact Registers.get_setPair_congr pair (congrArg (· + 1) word) written
  | decrementPair pair =>
      have word := same.pair pair (.head _) (.tail _ (.head _))
      exact Registers.get_setPair_congr pair (congrArg (· - 1) word) written
  | addHl source =>
      obtain ⟨left, right⟩ := same.words
      rw [perform, perform, Registers.get_addPair_data, Registers.get_addPair_data, left, right]
      exact Registers.get_setPair_congr .hl rfl written
  | arithmetic op source =>
      obtain ⟨stores, listed⟩ : op.stores = true ∧ register ∈ [DataRegister.a] := by
        cases op with
        | cp => cases written
        | _ => exact ⟨rfl, written⟩
      rw [perform, perform, Registers.combine, Registers.combine, if_pos stores, if_pos stores,
        same.result]
      exact Registers.get_setWithFlags_congr rfl listed
  | rotateA rotation =>
      rw [perform, perform, Registers.rotateA, Registers.rotateA, same.a (.head _),
        same.carry (.head _)]
      exact Registers.get_setWithFlags_congr rfl written
  | adjustDecimal =>
      rw [perform, perform, Registers.adjustDecimal, Registers.adjustDecimal, same.a (.head _),
        decimalAdjustment_congr _ same.flag]
      exact Registers.get_setWithFlags_congr rfl written
  | complementA =>
      have byte := same.get .a (.head _)
      exact Registers.get_setWithFlags_congr (congrArg (~~~ ·) byte) written
  | increment changed =>
      rw [perform, perform, Registers.increment, Registers.increment, same.get changed (.head _)]
      exact Registers.get_setWithFlags_congr rfl written
  | decrement changed =>
      rw [perform, perform, Registers.decrement, Registers.decrement, same.get changed (.head _)]
      exact Registers.get_setWithFlags_congr rfl written
  | shift kind changed =>
      rw [perform, perform, Registers.shift, Registers.shift, same.get changed (.head _),
        same.carry (.head _)]
      exact Registers.get_setWithFlags_congr rfl written
  | clearBit position changed =>
      rw [perform, perform, Registers.clearBit, Registers.clearBit, same.get changed (.head _)]
      exact Registers.get_set_congr rfl written
  | setBit position changed =>
      rw [perform, perform, Registers.setBit, Registers.setBit, same.get changed (.head _)]
      exact Registers.get_set_congr rfl written

/-- The flags that an operation leaves depend on the registers and flags at which it looks. -/
theorem flag_perform_congr (same : SeesSame operation registers other)
    {flag : Flag} (written : flag ∈ operation.flagsWritten) :
    (operation.perform immediate registers).flags.get flag =
      (operation.perform immediate other).flags.get flag := by
  cases operation with
  | nop => cases written
  | load destination source | loadPair pair => cases written
  | incrementPair pair | decrementPair pair => cases written
  | clearBit position changed | setBit position changed => cases written
  | setCarry =>
      cases flag with
      | halfCarry | carry => rfl
      | _ => simp [flagsWritten] at written
  | complementCarry =>
      cases flag with
      | halfCarry => rfl
      | carry => exact congrArg not (same.carry (.head _))
      | _ => simp [flagsWritten] at written
  | complementA =>
      cases flag with
      | subtract | halfCarry => rfl
      | _ => simp [flagsWritten] at written
  | checkBit position checked =>
      rw [perform, perform, Registers.checkBit, Registers.checkBit, Registers.testBit,
        Registers.testBit, same.get checked (.head _)]
      cases flag with
      | carry => simp [flagsWritten] at written
      | _ => rfl
  | increment changed =>
      rw [perform, perform, Registers.increment, Registers.increment, same.get changed (.head _)]
      cases flag with
      | carry => simp [flagsWritten] at written
      | _ => rfl
  | decrement changed =>
      rw [perform, perform, Registers.decrement, Registers.decrement, same.get changed (.head _)]
      cases flag with
      | carry => simp [flagsWritten] at written
      | _ => rfl
  | addHl source =>
      obtain ⟨left, right⟩ := same.words
      rw [perform, perform, Registers.addPair, Registers.addPair, left, right]
      cases flag with
      | zero => simp [flagsWritten] at written
      | _ => rfl
  | adjustDecimal =>
      rw [perform, perform, Registers.adjustDecimal, Registers.adjustDecimal, same.a (.head _),
        decimalAdjustment_congr _ same.flag]
      rfl
  | arithmetic op source =>
      rw [perform, perform, Registers.flags_combine, Registers.flags_combine,
        same.result]
  | rotateA rotation =>
      rw [perform, perform, Registers.rotateA, Registers.rotateA, same.a (.head _),
        same.carry (.head _)]
      rfl
  | shift kind changed =>
      rw [perform, perform, Registers.shift, Registers.shift, same.get changed (.head _),
        same.carry (.head _)]
      rfl

/-- What an operation writes depends on the locations that it reads alone. -/
theorem view_perform_congr {location : Location}
    (same : ∀ read ∈ operation.reads, registers.view read = other.view read)
    (written : location ∈ operation.writes) :
    (operation.perform immediate registers).view location =
      (operation.perform immediate other).view location := by
  have sees := SeesSame.of_view same
  cases location with
  | register register =>
      exact congrArg Sum.inl (get_perform_congr sees (register_mem_writes.mp written))
  | flag flag => exact congrArg Sum.inr (flag_perform_congr sees (flag_mem_writes.mp written))

end Operation

end Sm83
