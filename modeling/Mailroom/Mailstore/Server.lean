import Mailroom.Imap.Capability
import Mailroom.Imap.Command
import Mailroom.Mailstore.Message
import Mailroom.Sorted.Map
import Mailroom.Text.Blank

/-! A mail store: folders with messages, and a record of what was asked of it.

In each folder messages get ascending identifiers, which are never used again. The store can
be told to fail certain commands, and to refuse logins. -/
namespace Mailroom.Mailstore

/-- A folder: its messages, and the identifier that the next one gets. A new folder has
given no identifier yet. -/
structure Folder where
  nextUid : Nat := 0
  messages : SortedMap Uid Message := .empty
  deriving DecidableEq

namespace Folder

/-- The identifier that the next message gets. -/
def upcoming (f : Folder) : Uid := (Uid.ofNat? (max f.nextUid 1)).getD Uid.least

/-- The folder with one message more. Identifiers are numbers of 32 bits. -/
def append (f : Folder) (m : Message) : Folder where
  nextUid := (max f.nextUid 1 + 1) % UInt32.size
  messages := f.messages.insert f.upcoming m

def appendAll (f : Folder) (ms : List Message) : Folder := ms.foldl append f

/-- The given messages, as far as they are in the folder. -/
def lookup (f : Folder) (uids : UidSet) : List Message := uids.toList.filterMap f.messages.find?

def remove (f : Folder) (uids : UidSet) : Folder :=
  { f with messages := f.messages.filter fun uid _ => !uids.contains uid }

def markDeleted (f : Folder) (uids : UidSet) : Folder :=
  let mark := fun (messages : SortedMap Uid Message) uid =>
    match messages.find? uid with
    | some m => messages.insert uid (m.withFlag .deleted)
    | none => messages
  { f with messages := uids.toList.foldl mark f.messages }

/-- The folder without messages that are marked deleted, all of them or only among some. -/
def expunge (f : Folder) (only : Option UidSet) : Folder :=
  { f with messages := f.messages.filter fun uid m => !(m.has .deleted && only.all (·.contains uid)) }

end Folder

/-- A mail store. -/
structure Server where
  folders : SortedMap String Folder := SortedMap.empty.insert "INBOX" {}
  capabilities : List Capability := [.imap4rev1, .move, .uidPlus]
  /-- The commands that were received, latest first. -/
  log : List String := []
  /-- The name of the command that fails. -/
  failing : Option String := none
  refusesLogin : Bool := false
  /-- How many sessions have been opened. -/
  opened : Nat := 0
  /-- How many sessions have been logged out. -/
  closed : Nat := 0
  deriving DecidableEq

namespace Server

/-- The store with a folder, new if there was none. -/
def addFolder (s : Server) (name : String) : Server :=
  if s.folders.contains name then s else { s with folders := s.folders.insert name {} }

/-- The store with a message delivered to a folder, new if there was none. Also tells the
identifier the message got. -/
def deliver (s : Server) (name : String) (m : Message) : Uid × Server :=
  let folder := (s.folders.find? name).getD {}
  (folder.upcoming, { s with folders := s.folders.insert name (folder.append m) })

/-- The commands that were received, in order. -/
def commands (s : Server) : List String := s.log.reverse

/-- A command as it is recorded: as it is written, without a tag and without blanks at the
end. -/
def recorded (command : Command) : String :=
  let written := (Utf8.lossy (command.wire "*" true)).toList
  String.ofList (Blank.trimEnd (written.drop 2))

end Server

end Mailroom.Mailstore
