import Mailroom.Imap.BodyStructure
import Mailroom.Imap.Envelope
import Mailroom.Imap.FetchItem
import Mailroom.Imap.SearchKey
import Mailroom.Message.Attachment
import Mailroom.Text.Casing
import Mailroom.Text.Size

/-! Messages as a mail store keeps them.

A stored message is what searches and listings can see of a message. It answers search keys
and tells about itself the way a server would. -/
namespace Mailroom.Mailstore

/-- A stored message. -/
structure Message where
  sender : String
  senderName : Option String := none
  recipient : String := "me@example.com"
  subject : String
  /-- The day it was received. -/
  date : Date := ⟨2024, 1, 1, by decide⟩
  flags : List Flag := []
  attachments : List Attachment := []
  size : Nat := 1024
  deriving DecidableEq

namespace Message

def withFlag (m : Message) (flag : Flag) : Message :=
  if m.flags.contains flag then m else { m with flags := m.flags ++ [flag] }

/-- The message with one file more, unless it becomes too large to be counted. -/
def withAttachment (m : Message) (filename : String) (size : Nat) : Option Message :=
  (Size.add? m.size size).map fun total =>
    { m with attachments := m.attachments ++ [⟨filename, size⟩], size := total }

def has (m : Message) (flag : Flag) : Bool := m.flags.contains flag

/-- The sender as the header gives it. -/
def senderText (m : Message) : String :=
  match m.senderName with
  | some name => name ++ " <" ++ m.sender ++ ">"
  | none => m.sender

/-- Whether the characters of `part` stand somewhere in `whole`, one after the other. -/
def isPart (part : List Char) : List Char → Bool
  | [] => part.isEmpty
  | c :: rest => part.isPrefixOf (c :: rest) || isPart part rest

/-- Whether `part` stands somewhere in `whole`, in any letter case. -/
def contains (whole part : String) : Bool :=
  isPart (Casing.lower part).toList (Casing.lower whole).toList

/-- Whether a search key applies to the message. -/
def isFound (m : Message) : SearchKey → Bool
  | .all => true
  | .unseen => !m.has .seen
  | .unanswered => !m.has .answered
  | .from text => contains m.senderText text
  | .to text => contains m.recipient text
  | .subject text => contains m.subject text
  | .since date => date ≤ m.date
  | .before date => m.date < date
  | .not key => !m.isFound key

/-- The two sides of the last `@` of an address. -/
def addressOf (email : String) : Address :=
  let cs := email.toList
  match Split.afterLast? '@' cs with
  | some host =>
    { mailbox := some (String.ofList (cs.take (cs.length - host.length - 1)))
      host := some (String.ofList host) }
  | none => { mailbox := some email }

def envelope (m : Message) : Envelope :=
  let sender := { addressOf m.sender with name := m.senderName }
  { date := some (m.date.headerText ++ " 00:00:00 +0000")
    subject := some m.subject
    «from» := [sender]
    sender := [sender]
    replyTo := [sender]
    «to» := [addressOf m.recipient] }

/-- The media type of a file, by its extension. -/
def mediaType (filename : String) : String × String :=
  match Attachment.extension filename with
  | "pdf" => ("APPLICATION", "PDF")
  | "png" => ("IMAGE", "PNG")
  | "jpg" => ("IMAGE", "JPEG")
  | "jpeg" => ("IMAGE", "JPEG")
  | "zip" => ("APPLICATION", "ZIP")
  | _ => ("APPLICATION", "OCTET-STREAM")

/-- The part that a file makes. -/
def filePart (a : Attachment) : BodyStructure :=
  let (type, subtype) := mediaType a.filename
  .single type subtype [("NAME", a.filename)] a.size
    (some ⟨"attachment", [("FILENAME", a.filename)]⟩)

/-- The text of every message. -/
def textPart : BodyStructure := .single "TEXT" "PLAIN" [("CHARSET", "UTF-8")] 512 none

/-- The parts of the message: a text, and a part for every file. -/
def bodyStructure (m : Message) : BodyStructure :=
  if m.attachments.isEmpty then textPart
  else .multipart "MIXED" (textPart :: m.attachments.map filePart) none

/-- What the message tells about itself. -/
def item (m : Message) : FetchAttribute → Option FetchItem
  | .uid => none
  | .flags => some (.flags m.flags)
  | .envelope => some (.envelope m.envelope)
  | .bodyStructure => some (.bodyStructure m.bodyStructure)
  | .size => some (.size m.size)
  | .internalDate => some (.internalDate (m.date.internalText ++ " 00:00:00 +0000"))

/-- Everything the message tells about itself under an identifier. -/
def items (m : Message) (uid : Uid) (attributes : List FetchAttribute) : List FetchItem :=
  .uid uid :: attributes.filterMap m.item

end Message

end Mailroom.Mailstore
