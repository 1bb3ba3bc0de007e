import Sm83.Register.Pair

/-!
# Names are read exactly

A name may be spelled with letters of either case. Main statements: reading a name accepts its
spellings and nothing else, two registers form a pair only if they are its halves in order, and
what is not accepted is reported as it was given.
-/

namespace Sm83

/-- What is accepted is granted, and nothing else is. Where nothing is accepted there is one
fault. -/
structure Decides {α : Type} (result : Except Fault α) (accepts : α → Prop) (fault : Fault) :
    Prop where
  granted : ∀ value, result = .ok value ↔ accepts value
  refused : ∀ other, result = .error other ↔ (∀ value, ¬accepts value) ∧ other = fault

namespace Decides

variable {α β : Type} {result : Except Fault α} {accepts : α → Prop} {fault : Fault}

theorem of_ok {only : α} (exact : ∀ value, only = value ↔ accepts value) :
    Decides (.ok only) accepts fault where
  granted value := by rw [← exact, Except.ok.injEq]
  refused other := ⟨nofun, fun refused => absurd ((exact only).mp rfl) (refused.1 only)⟩

theorem of_error (nothing : ∀ value, ¬accepts value) : Decides (.error fault) accepts fault where
  granted value := ⟨nofun, fun accepted => absurd accepted (nothing value)⟩
  refused other := by rw [Except.error.injEq, and_iff_right nothing, eq_comm]

/-- A search for what is accepted decides it. -/
theorem of_search {found : Option α} (exact : ∀ value, found = some value ↔ accepts value)
    (told : result = found.elim (.error fault) .ok) : Decides result accepts fault := by
  subst told
  cases found with
  | none => exact of_error fun value accepted => nomatch (exact value).mpr accepted
  | some only => exact of_ok fun value => by rw [← exact, Option.some_inj]

theorem eq_ok (decided : Decides result accepts fault) {value : α} (accepted : accepts value) :
    result = .ok value :=
  (decided.granted value).mpr accepted

theorem eq_error (decided : Decides result accepts fault) (nothing : ∀ value, ¬accepts value) :
    result = .error fault :=
  (decided.refused fault).mpr ⟨nothing, rfl⟩

/-- What follows from a decided value is decided. -/
theorem map (decided : Decides result accepts fault) (next : α → β) :
    Decides (result.map next) (fun value => ∃ first, accepts first ∧ next first = value) fault := by
  cases result with
  | error other =>
      obtain ⟨nothing, rfl⟩ := (decided.refused other).mp rfl
      exact of_error fun _ ⟨first, accepted, _⟩ => nothing first accepted
  | ok only =>
      refine of_ok fun value => ?_
      simp only [← decided.granted, Except.ok.injEq, exists_eq_left']

end Decides

/-! ## Spellings -/

/-- Lower case is taken letter by letter. -/
theorem toList_toLower (text : String) : text.toLower.toList = text.toList.map Char.toLower :=
  String.toList_map

namespace Register

/-- A spelling of a register's name: a single letter that is the register's in lower case. -/
def Spelling (register : Register) (name : String) : Prop :=
  ∃ letter, name.toList = [letter] ∧ letter.toLower = register.letter

/-- Spellings are the texts that have the name as their lower case. -/
theorem spelling_iff {register : Register} {name : String} :
    register.Spelling name ↔ name.toLower = register.name := by
  rw [← String.toList_inj, toList_toLower, Register.name, String.toList_singleton,
    List.map_eq_singleton_iff]
  rfl

/-- Reading a name accepts the spellings of every register. -/
theorem parse_decides (name : String) :
    Decides (parse name) (Spelling · name) (.unknownRegister name) := by
  rw [parse]
  split
  · next letter single =>
      have whole : name = String.singleton letter := by
        rw [← String.toList_inj, single, String.toList_singleton]
      apply Decides.of_search
      case found => exact ofLetter? letter
      case exact =>
        intro register
        rw [ofLetter?_eq_some_iff, Spelling, single]
        simp
      case told =>
        rw [ofLetter, whole]
        cases ofLetter? letter <;> rfl
  · next several =>
      apply Decides.of_error
      rintro register ⟨letter, single, -⟩
      exact several letter single

end Register

namespace Pair

/-- A spelling of a pair's name: a text that is the name in lower case. -/
def Spelling (pair : Pair) (name : String) : Prop := name.toLower = pair.name

theorem spelling_iff {pair : Pair} {name : String} :
    pair.Spelling name ↔ name.toList.map Char.toLower = pair.letters := by
  rw [Spelling, ← String.toList_inj, toList_toLower, Pair.name, String.toList_ofList]

/-- Reading a name accepts the spellings of every pair. -/
theorem parse_decides (name : String) :
    Decides (parse name) (Spelling · name) (.unknownPair name) := by
  apply Decides.of_search
  case found => exact ofLetters? name.toList
  case exact =>
    intro pair
    rw [ofLetters?_eq_some_iff, spelling_iff]
  case told =>
    rw [parse]
    cases ofLetters? name.toList <;> rfl

/-- Two registers form the pair of which they are the halves, the high one first. -/
theorem ofHalves_decides (high low : Register) :
    Decides (ofHalves high low) (fun pair => pair.high = high ∧ pair.low = low)
      (.unknownPair (high.name ++ low.name)) := by
  apply Decides.of_search
  case found => exact ofHalves? high low
  case exact => exact fun pair => ofHalves?_eq_some_iff
  case told =>
    rw [ofHalves]
    cases ofHalves? high low <;> rfl

end Pair

end Sm83
