import Sm83.Monitor.Session

/-!
# Requests one after another

A session takes one request after another; one that is refused does not stop those behind it. Main
statement: where every request either brings a value to some part of the session or leaves that
part alone, the part ends with the value that was brought last.
-/

namespace Sm83

/-- A command with its answer. -/
structure Exchange where
  command : Command
  answer : Except Fault Reply

/-- The value that was brought last, if any was. -/
def latest? {α β : Type} (brought? : α → Option β) (items : List α) : Option β :=
  items.reverse.findSome? brought?

theorem latest?_cons {α β : Type} (brought? : α → Option β) (first : α) (rest : List α) :
    latest? brought? (first :: rest) = (latest? brought? rest).or (brought? first) := by
  rw [latest?, List.reverse_cons, List.findSome?_append, List.findSome?_singleton]
  rfl

namespace Session

/-- The session after commands, one after another. -/
def performAll (session : Session) (commands : List Command) : Session :=
  commands.foldl (fun session command => (session.perform command).value.session) session

/-- Commands carried out one after another, each with its answer. -/
def exchanges (session : Session) : List Command → List Exchange
  | [] => []
  | command :: rest =>
      let response := (session.perform command).value
      ⟨command, response.answer⟩ :: response.session.exchanges rest

variable {β : Type} (view : Session → β) {commands : List Command}

/-- What every command either replaces or keeps is in the end what was brought last. -/
theorem view_performAll (brought? : Exchange → Option β)
    (step : ∀ session : Session, ∀ command ∈ commands,
      let response := (session.perform command).value
      view response.session = (brought? ⟨command, response.answer⟩).getD (view session))
    (session : Session) :
    view (session.performAll commands) =
      (latest? brought? (session.exchanges commands)).getD (view session) := by
  induction commands generalizing session with
  | nil => rfl
  | cons command rest ih =>
      let next := (session.perform command).value.session
      have later := ih (fun session command isMember =>
        step session command (List.mem_cons_of_mem _ isMember)) next
      rw [step session command List.mem_cons_self] at later
      rw [exchanges, latest?_cons, Option.getD_or]
      exact later

/-- What every command keeps stays as it was. -/
theorem view_performAll_of_kept
    (kept : ∀ session : Session, ∀ command ∈ commands,
      view (session.perform command).value.session = view session)
    (session : Session) : view (session.performAll commands) = view session := by
  let nothing : Exchange → Option β := fun _ => none
  have last : latest? nothing (session.exchanges commands) = none :=
    List.findSome?_eq_none_iff.mpr fun _ _ => rfl
  rw [view_performAll view nothing kept session, last, Option.getD_none]

end Session

end Sm83
