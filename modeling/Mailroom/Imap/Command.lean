import Mailroom.Imap.Flag
import Mailroom.Imap.MailboxName
import Mailroom.Imap.Request
import Mailroom.Imap.Uid

/-! What the client can ask of a server.

Mailbox names are given as people read them, and encoded when a command is written. -/
namespace Mailroom

/-- One command. -/
inductive Command
  | capability
  | login (username password : String)
  | logout
  | list (reference pattern : String)
  /-- Opens a mailbox for reading and writing. -/
  | select (mailbox : String)
  /-- Opens a mailbox for reading. -/
  | examine (mailbox : String)
  | create (mailbox : String)
  | delete (mailbox : String)
  | rename (old new : String)
  /-- Asks for the messages to which every key applies. -/
  | search (keys : List SearchKey)
  | fetch (uids : UidSet) (attributes : List FetchAttribute)
  /-- Adds flags, without having the new ones reported. -/
  | addFlags (uids : UidSet) (flags : List Flag)
  | copy (uids : UidSet) (mailbox : String)
  | move (uids : UidSet) (mailbox : String)
  | expunge
  /-- Expunges only among the given messages. -/
  | expungeOnly (uids : UidSet)
  deriving DecidableEq

namespace Command

def name : Command → String
  | capability => "CAPABILITY"
  | login .. => "LOGIN"
  | logout => "LOGOUT"
  | list .. => "LIST"
  | select _ => "SELECT"
  | examine _ => "EXAMINE"
  | create _ => "CREATE"
  | delete _ => "DELETE"
  | rename .. => "RENAME"
  | search _ => "UID SEARCH"
  | fetch .. => "UID FETCH"
  | addFlags .. => "UID STORE"
  | copy .. => "UID COPY"
  | move .. => "UID MOVE"
  | expunge => "EXPUNGE"
  | expungeOnly _ => "UID EXPUNGE"

/-- A mailbox name as an argument. -/
def mailboxPiece (mailbox : String) : Piece := .shortest (MailboxName.encode mailbox)

/-- The words with spaces between, in parentheses. -/
def listText (words : List String) : String := "(" ++ " ".intercalate words ++ ")"

def arguments : Command → List Piece
  | capability | logout | expunge => []
  | login username password => [.text " ", .shortest username, .text " ", .shortest password]
  | list reference pattern =>
    [.text " ", mailboxPiece reference, .text " ", .pattern (MailboxName.encode pattern)]
  | select mailbox | examine mailbox | create mailbox | delete mailbox =>
    [.text " ", mailboxPiece mailbox]
  | rename old new => [.text " ", mailboxPiece old, .text " ", mailboxPiece new]
  | search keys =>
    .text " " :: (if keys.any SearchKey.needsUtf8 then [.text "CHARSET UTF-8 "] else []) ++
      (if keys.isEmpty then [.text "ALL"] else Piece.ofKeys keys)
  | fetch uids attributes =>
    [.text (" " ++ uids.text ++ " " ++ listText (attributes.map FetchAttribute.text))]
  | addFlags uids flags =>
    [.text (" " ++ uids.text ++ " +FLAGS.SILENT " ++ listText (flags.map Flag.text))]
  | copy uids mailbox | move uids mailbox =>
    [.text (" " ++ uids.text ++ " "), mailboxPiece mailbox]
  | expungeOnly uids => [.text (" " ++ uids.text)]

/-- The parts of the command with the given tag. -/
def request (command : Command) (tag : String) (unasked : Bool) : List Bytes :=
  Request.parts tag unasked (.text command.name :: command.arguments)

/-- The whole command, as it goes over the wire. -/
def wire (command : Command) (tag : String) (unasked : Bool) : Bytes :=
  (command.request tag unasked).flatten

end Command

end Mailroom
