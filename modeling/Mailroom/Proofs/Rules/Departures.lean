import Mailroom.Proofs.Rules.Progress

/-! The moves of a run.

`departures` are the moves that come up in a run, one after the other and each with the run as it is just before:
all is prepared, and what is left to do is to move the messages. What holds of all of them can be followed along
the run (`bind_up`). -/
namespace Mailroom.Rules
open Mailstore Mailstore.Session

/-- A move that comes up in a run: the run just before, and what is to be moved where. -/
structure Departure (σ : Type) where
  run : Run σ
  uids : UidSet
  folder : String

section
variable {σ α : Type} [MailSession σ] (inbox : String)

omit [MailSession σ] in
/-- What comes up after an operation, if it succeeds. -/
def upAfter (op : Mail (Run σ) α) (next : α → Run σ → List (Departure σ)) (run : Run σ) :
    List (Departure σ) :=
  match op run with
  | (.ok a, run) => next a run
  | (.error _, _) => []

/-- The moves that an action comes to. -/
def departuresOf (uids : UidSet) : Action → Run σ → List (Departure σ)
  | .move folder => upAfter (prepare inbox folder) fun _ run => [⟨run, uids, folder⟩]
  | .delete => fun _ => []

/-- The moves that several actions come to. -/
def departuresOfAll (uids : UidSet) : List Action → Run σ → List (Departure σ)
  | [], _ => []
  | action :: rest, run =>
    departuresOf inbox uids action run ++
      upAfter (act inbox false uids action) (fun _ => departuresOfAll uids rest) run

/-- The moves that a rule comes to. -/
def departuresOfRule (rule : Rule) : Run σ → List (Departure σ) :=
  upAfter (onSession (rule.spec.resolve inbox rule.merge)) fun matched run =>
    if matched.isEmpty then []
    else
      upAfter (onSession (Mail.query inbox (MailSession.selectFolder inbox false)))
        (fun _ => departuresOfAll inbox matched rule.actions) run

/-- The moves that several rules come to. -/
def departures : List Rule → Run σ → List (Departure σ)
  | [], _ => []
  | rule :: rest, run =>
    departuresOfRule inbox rule run ++ upAfter (apply inbox false rule) (fun _ => departures rest) run

end

/-- The command that the move is made with. -/
def Departure.command (d : Departure Session) : Command :=
  if d.run.session.handle.capabilities.contains .move then .move d.uids d.folder else .copy d.uids d.folder

end Mailroom.Rules
