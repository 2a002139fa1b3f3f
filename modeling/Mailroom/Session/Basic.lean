import Mailroom.Failure
import Mailroom.Imap.FetchItem
import Mailroom.Imap.Mailbox
import Mailroom.Imap.Capability
import Mailroom.Imap.SearchKey
import Mailroom.Sorted.Map

/-! Sessions: what the rest of the library needs of a server.

A `MailSession` is a logged-in conversation. Message operations act on the folder that was
opened last, and do nothing when no message is given. A `Connector` opens sessions, one at
a time; while a session is open it holds whatever the connector held. -/
namespace Mailroom

abbrev SessionM (σ α : Type) := ExceptT SessionError (StateM σ) α

/-- What is told about messages, by identifier. -/
abbrev Fetched := SortedMap Uid (List FetchItem)

/-- A logged-in conversation with a server. -/
class MailSession (σ : Type) where
  /-- What the server said it can do. -/
  capabilities : σ → List Capability
  listFolders : SessionM σ (List Mailbox.Listing)
  /-- Opens a folder, for reading only or for writing as well. -/
  selectFolder : String → Bool → SessionM σ Mailbox.Status
  /-- Finds the messages to which every key applies. -/
  search : List SearchKey → SessionM σ UidSet
  fetch : UidSet → List FetchAttribute → SessionM σ Fetched
  /-- Moves messages with the server's own command. -/
  moveMessages : UidSet → String → SessionM σ Unit
  copyMessages : UidSet → String → SessionM σ Unit
  /-- Marks messages deleted. -/
  deleteMessages : UidSet → SessionM σ Unit
  /-- Removes messages that are marked deleted, only among the given ones where the server
  can do that. -/
  expunge : UidSet → SessionM σ Unit
  createFolder : String → SessionM σ Unit
  renameFolder : String → String → SessionM σ Unit
  deleteFolder : String → SessionM σ Unit
  /-- Ends the conversation. -/
  logout : SessionM σ Unit

/-- A way to open sessions. -/
class Connector (κ : Type) (σ : outParam Type) extends MailSession σ where
  /-- Connects and logs in. A connector that fails to may have changed. -/
  connect : κ → Except SessionError σ × κ
  /-- The connector once a session is over. -/
  release : σ → κ

namespace MailSession
variable {σ : Type} [MailSession σ]

/-- Moves messages out of the open folder, with the server's own command or, where it has
none, by copying them and removing what was copied. -/
def moveOrCopy (uids : UidSet) (folder : String) : SessionM σ Unit := do
  if (capabilities (← get)).contains .move then moveMessages uids folder
  else do
    copyMessages uids folder
    deleteMessages uids
    expunge uids

end MailSession

/-- An operation that can fail in the ways of an account. -/
abbrev Mail (σ α : Type) := ExceptT Failure (StateM σ) α

namespace Mail

/-- An operation on a session, with its failure put in terms of what was being done. -/
def lift {σ α : Type} (explain : SessionError → Failure) (op : SessionM σ α) : Mail σ α := fun s =>
  let (result, s) := op s
  (result.mapError explain, s)

/-- A session operation that looks something up in a folder. -/
def query {σ α : Type} (folder : String) (op : SessionM σ α) : Mail σ α :=
  lift (.queryFailed folder) op

/-- A session operation that changes something. -/
def mutate {σ α : Type} (mutation : Mutation) (op : SessionM σ α) : Mail σ α :=
  lift (.mutationFailed mutation) op

end Mail

namespace Connector
variable {κ σ α : Type} [Connector κ σ]

/-- What it means for an account that no session could be opened. -/
def explain (account : String) : SessionError → Failure
  | .login text => .authentication account (.login text)
  | source => .connection account source

/-- Does something on a session of its own, and logs out afterwards in any case. What comes
of logging out does not matter. -/
def withSession (account : String) (op : Mail σ α) : Mail κ α := fun connector =>
  match connect connector with
  | (.error e, connector) => (.error (explain account e), connector)
  | (.ok session, _) =>
    let (result, session) := op session
    let (_, session) := (MailSession.logout : SessionM σ Unit) session
    (result, release session)

end Connector

end Mailroom
