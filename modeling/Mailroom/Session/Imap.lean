import Mailroom.Imap.Client
import Mailroom.Session.Basic

/-! Sessions over a connection.

Opening a folder can fail and then the connection is lost: every later request finds the
session closed. -/
namespace Mailroom

/-- How a session stands. -/
inductive ImapSession.State
  | loggedIn
  /-- This folder is open. -/
  | opened (folder : String)
  | closed
  deriving DecidableEq

/-- A session over a connection. -/
structure ImapSession where
  connection : Connection
  state : ImapSession.State
  deriving DecidableEq

namespace ImapSession

/-- How the session stands, in a word: the open folder, or that there is none. -/
def shown (s : ImapSession) : String :=
  match s.state with
  | .loggedIn => "authenticated"
  | .opened folder => folder
  | .closed => "closed"

/-- The session as it is shown in reports. -/
def text (s : ImapSession) : String :=
  "ImapSession \x7b state: " ++ Quoted.quote s.shown ++ " \x7d"

/-- Does something over the connection. -/
def talk {α : Type} (op : Talk α) : SessionM ImapSession α := fun s =>
  let (result, connection) := op s.connection
  (result.mapError .imap, { s with connection })

/-- Fails unless the session is still there. -/
def requireLine : SessionM ImapSession Unit := do
  if (← get).state = .closed then throw .closed

/-- Fails unless a folder is open. -/
def requireFolder : SessionM ImapSession Unit := do
  match (← get).state with
  | .loggedIn => throw .noFolderSelected
  | .opened _ => pure ()
  | .closed => throw .closed

/-- What the server said it can do. -/
def capabilities (s : ImapSession) : List Capability :=
  match s.state with
  | .closed => []
  | _ => s.connection.capabilities

/-- Opens a folder. Until that has succeeded the session counts as closed. -/
def selectFolder (folder : String) (readOnly : Bool) : SessionM ImapSession Mailbox.Status := do
  requireLine
  modify fun s => { s with state := .closed }
  let status ← talk (Client.openMailbox folder readOnly)
  modify fun s => { s with state := .opened folder }
  pure status

/-- The identifier that a response tells, if it tells one. -/
def uidOf (items : List FetchItem) : Option Uid :=
  items.findSome? fun
    | .uid u => some u
    | _ => none

/-- What was told about messages, with one response more. A response without an identifier
was not asked for. -/
def gather (told : Fetched) (items : List FetchItem) : Fetched :=
  match uidOf items with
  | some u => told.insert u ((told.find? u).getD [] ++ items)
  | none => told

/-- Does something with messages of the open folder, if there are any. -/
def withMessages (uids : UidSet) (op : Talk Unit) : SessionM ImapSession Unit := do
  if uids.isEmpty then pure ()
  else
    requireFolder
    talk op

/-- What the server tells about the given messages. -/
def fetch (uids : UidSet) (attributes : List FetchAttribute) : SessionM ImapSession Fetched := do
  if uids.isEmpty then pure .empty
  else
    requireFolder
    let responses ← talk (Client.fetch uids attributes)
    pure (responses.foldl gather .empty)

/-- Removes messages that are marked deleted: the given ones if the server can do that, and
otherwise all. -/
def expungeTalk (uids : UidSet) : Talk Unit := do
  if (← get).has .uidPlus then
    let _ ← Client.expungeOnly uids
  else
    let _ ← Client.expunge

/-- Does something with mailboxes. -/
def manage {α : Type} (op : Talk α) : SessionM ImapSession α := do
  requireLine
  talk op

/-- Ends the conversation, unless it is over already. -/
def logout : SessionM ImapSession Unit := do
  if (← get).state = .closed then pure ()
  else talk Client.logout

instance : MailSession ImapSession where
  capabilities := capabilities
  listFolders := manage (Client.list "" "*")
  selectFolder := selectFolder
  search keys := do
    requireFolder
    let uids ← talk (Client.search keys)
    pure (SortedSet.ofList uids)
  fetch := fetch
  moveMessages uids folder := withMessages uids (Client.move uids folder)
  copyMessages uids folder := withMessages uids (Client.copy uids folder)
  deleteMessages uids := withMessages uids (Client.addFlags uids [.deleted])
  expunge uids := withMessages uids (expungeTalk uids)
  createFolder folder := manage (Client.create folder)
  renameFolder old new := manage (Client.rename old new)
  deleteFolder folder := manage (Client.delete folder)
  logout := logout

/-- A refusal of the credentials, told apart from other errors. -/
def loginError : ImapError → SessionError
  | .auth text => .login text
  | e => .imap e

/-- Asks the server what it can do, unless it has said so. -/
def learn : Talk Unit := do
  if (← get).capabilities.isEmpty then
    let _ ← Client.capability

/-- Logs in over a connection that has been greeted. -/
def logIn (username password : String) (c : Connection) :
    Except SessionError ImapSession × Connection :=
  match (Client.login username password : Talk Unit) c with
  | (.error e, c) => (.error (loginError e), c)
  | (.ok (), c) =>
    match (learn : Talk Unit) c with
    | (.error e, c) => (.error (.imap e), c)
    | (.ok (), c) => (.ok ⟨c, .loggedIn⟩, c)

/-- Logs in to a server that sends these frames. Also tells what was written. -/
def start (username password : String) (incoming : List Bytes) (ending : FrameError) :
    Except SessionError ImapSession × List Bytes :=
  match Connection.greet incoming ending with
  | .error e => (.error (.imap e), [])
  | .ok c =>
    let (result, c) := logIn username password c
    (result, c.written)

end ImapSession

end Mailroom
