import Mailroom.Mailstore.Server
import Mailroom.Session.Basic

/-! Sessions on a mail store.

Every request is recorded before it is looked at. While a session is open it holds the store,
so that sessions follow one another on the same store. -/
namespace Mailroom.Mailstore

/-- What a session knows: what the store could do when it was opened, and the folder that is
open, if any, with whether it is open for reading only. -/
structure Handle where
  capabilities : List Capability
  selected : Option (String × Bool) := none
  deriving DecidableEq

/-- A session on a mail store. -/
structure Session where
  server : Server
  handle : Handle
  deriving DecidableEq

namespace Session

abbrev Op (α : Type) := SessionM Session α

def reject {α : Type} (rejection : Rejection) : Op α := throw (.rejected rejection)

/-- Records a command, which fails if the store was told to fail it. -/
def request (command : Command) : Op Unit := do
  modify fun s => { s with server := { s.server with log := Server.recorded command :: s.server.log } }
  if (← get).server.failing = some command.name then reject (.failing command.name)

/-- The folder that is open, and whether for reading only. -/
def selected : Op (String × Bool) := do
  match (← get).handle.selected with
  | some selected => pure selected
  | none => throw .noFolderSelected

/-- The folder that is open for writing. -/
def writable : Op String := do
  let (name, readOnly) ← selected
  if readOnly then reject .readOnly else pure name

def folders : Op (SortedMap String Folder) := do pure (← get).server.folders

/-- Puts other folders in place of those of the store. -/
def setFolders (folders : SortedMap String Folder) : Op Unit :=
  modify fun s => { s with server := { s.server with folders } }

/-- The folder with a name that had a folder when it was opened. -/
def folderNamed (name : String) : Op Folder := do
  match (← folders).find? name with
  | some folder => pure folder
  | none => throw .closed

/-- Changes the folder with a name, if there is one. -/
def changeFolder (name : String) (change : Folder → Folder) : Op Unit := do
  let all ← folders
  match all.find? name with
  | some folder => setFolders (all.insert name (change folder))
  | none => pure ()

/-- Whether the store could do this when the session was opened. -/
def has (capability : Capability) : Op Bool := do
  pure ((← get).handle.capabilities.contains capability)

/-- Puts messages of the open folder into another one, leaving them where they are or not. -/
def transfer (command : Command) (uids : UidSet) (destination : String) (removes : Bool) :
    Op Unit := do
  let source ← if removes then writable else Prod.fst <$> selected
  request command
  if !(← folders).contains destination then reject (.noDestination destination)
  let folder ← folderNamed source
  if removes then changeFolder source (·.remove uids)
  changeFolder destination (·.appendAll (folder.lookup uids))

def listFolders : Op (List Mailbox.Listing) := do
  request (.list "" "*")
  pure ((← folders).keys.map fun name => ⟨[.hasNoChildren], some '/', name⟩)

/-- Opens a folder. If there is none of this name, the one that was open stays open. -/
def selectFolder (name : String) (readOnly : Bool) : Op Mailbox.Status := do
  request (if readOnly then .examine name else .select name)
  match (← folders).find? name with
  | none => reject (.noMailbox name)
  | some folder =>
    modify fun s => { s with handle := { s.handle with selected := some (name, readOnly) } }
    pure
      { count := min folder.messages.size (UInt32.size - 1)
        uidValidity := some 1
        uidNext := some (max folder.nextUid 1)
        readOnly }

/-- Finds the messages of the open folder to which every key applies. -/
def search (keys : List SearchKey) : Op UidSet := do
  let (name, _) ← selected
  request (.search keys)
  let folder ← folderNamed name
  pure (folder.messages.filter fun _ m => keys.all m.isFound).keySet

/-- What is told about the given messages, as far as they are in the folder. -/
def told (folder : Folder) (attributes : List FetchAttribute) (uids : UidSet) : Fetched :=
  let tell := fun (found : Fetched) uid =>
    match folder.messages.find? uid with
    | some m => found.insert uid (m.items uid attributes)
    | none => found
  uids.toList.foldl tell .empty

/-- Tells about messages of the open folder. -/
def fetch (uids : UidSet) (attributes : List FetchAttribute) : Op Fetched := do
  let (name, _) ← selected
  if uids.isEmpty then pure .empty
  else
    request (.fetch uids attributes)
    let folder ← folderNamed name
    pure (told folder attributes uids)

/-- Does something with messages, if there are any. -/
def unlessEmpty (uids : UidSet) (op : Op Unit) : Op Unit := do
  if uids.isEmpty then pure () else op

/-- Moves messages, if the store can do that. -/
def moveMessages (uids : UidSet) (destination : String) : Op Unit :=
  unlessEmpty uids do
    if !(← has .move) then throw (.imap (.protocol .noMove))
    transfer (.move uids destination) uids destination true

def copyMessages (uids : UidSet) (destination : String) : Op Unit :=
  unlessEmpty uids (transfer (.copy uids destination) uids destination false)

def deleteMessages (uids : UidSet) : Op Unit :=
  unlessEmpty uids do
    let name ← writable
    request (.addFlags uids [.deleted])
    changeFolder name (·.markDeleted uids)

/-- Removes messages that are marked deleted. -/
def expunge (uids : UidSet) : Op Unit :=
  unlessEmpty uids do
    let name ← writable
    if ← has .uidPlus then
      request (.expungeOnly uids)
      changeFolder name (·.expunge (some uids))
    else
      request .expunge
      changeFolder name (·.expunge none)

def createFolder (name : String) : Op Unit := do
  request (.create name)
  let all ← folders
  if all.contains name then reject (.mailboxExists name)
  setFolders (all.insert name {})

def renameFolder (old new : String) : Op Unit := do
  request (.rename old new)
  let all ← folders
  if all.contains new then reject (.mailboxExists new)
  match all.find? old with
  | none => reject (.noMailbox old)
  | some folder => setFolders ((all.erase old).insert new folder)

/-- Deletes a folder, but never the inbox. -/
def deleteFolder (name : String) : Op Unit := do
  request (.delete name)
  let all ← folders
  if Ascii.same name "INBOX" || !all.contains name then reject (.undeletable name)
  setFolders (all.erase name)

def logout : Op Unit := do
  request .logout
  modify fun s => { s with server := { s.server with closed := s.server.closed + 1 } }

instance : MailSession Session where
  capabilities s := s.handle.capabilities
  listFolders := listFolders
  selectFolder := selectFolder
  search := search
  fetch := fetch
  moveMessages := moveMessages
  copyMessages := copyMessages
  deleteMessages := deleteMessages
  expunge := expunge
  createFolder := createFolder
  renameFolder := renameFolder
  deleteFolder := deleteFolder
  logout := logout

end Session

namespace Server

/-- Opens a session, unless the store refuses logins. -/
def connect (s : Server) : Except SessionError Session × Server :=
  if s.refusesLogin then (.error (.login "invalid credentials"), s)
  else
    let s := { s with opened := s.opened + 1 }
    (.ok ⟨s, { capabilities := s.capabilities }⟩, s)

instance : Connector Server Session where
  connect := connect
  release := Session.server

end Server

end Mailroom.Mailstore
