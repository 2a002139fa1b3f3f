import Mailroom.Calendar.Reading
import Mailroom.Imap.FetchItem
import Mailroom.Imap.SearchKey
import Mailroom.Message.Attachment
import Mailroom.Text.Size

/-! A message at a glance. -/
namespace Mailroom

/-- What a list of messages shows of one. -/
structure Summary where
  uid : Uid
  /-- The sender's address. -/
  address : String := ""
  /-- The sender's name, if there is one. -/
  name : Option String := none
  subject : String := ""
  /-- When the server received the message, or else when it was sent. -/
  date : Option Timestamp := none
  seen : Bool := false
  answered : Bool := false
  flagged : Bool := false
  draft : Bool := false
  deleted : Bool := false
  size : Nat := 0
  attachments : List Attachment := []
  deriving DecidableEq

namespace Summary

/-- What has to be asked about a message to sum it up. -/
def attributes : List FetchAttribute := [.flags, .envelope, .bodyStructure, .size, .internalDate]

/-- The summary with a flag noted. -/
def noteFlag (s : Summary) : Flag → Summary
  | .seen => { s with seen := true }
  | .answered => { s with answered := true }
  | .flagged => { s with flagged := true }
  | .draft => { s with draft := true }
  | .deleted => { s with deleted := true }
  | .recent => s
  | .keyword _ => s

/-- The summary with the header fields noted. -/
def noteEnvelope (s : Summary) (e : Envelope) : Summary :=
  let s := match e.from with
    | [] => s
    | sender :: _ =>
      { s with
        address := sender.email?.getD ""
        name := sender.name.filter fun name => !Blank.isBlankText name }
  { s with subject := e.subject.getD "" }

/-- A summary in the making, and the date in the header. -/
abbrev Draft := Summary × Option Timestamp

/-- The summary with one thing more that is told about the message. -/
def note (d : Draft) : FetchItem → Draft
  | .uid _ => d
  | .flags flags => (flags.foldl noteFlag d.1, d.2)
  | .envelope e => (noteEnvelope d.1 e, e.date.bind Calendar.readHeader?)
  | .bodyStructure body => ({ d.1 with attachments := Attachment.all body }, d.2)
  | .size bytes => ({ d.1 with size := bytes }, d.2)
  | .internalDate text => ({ d.1 with date := Calendar.readInternal? text }, d.2)

/-- The summary of all that is told about a message. The date in the header counts when the
server gives none. -/
def ofItems (uid : Uid) (items : List FetchItem) : Summary :=
  let (s, headerDate) := items.foldl note ({ uid }, none)
  { s with date := s.date.or headerDate }

/-- The sender's name, or the address where there is none. -/
def sender (s : Summary) : String := s.name.getD s.address

/-- The size of all attachments. If 64 bits cannot count it, there is none: adding up the sizes
breaks the program off. -/
def attachmentSize (s : Summary) : Option Nat :=
  s.attachments.foldlM (fun total a => Size.add? total a.size) 0

end Summary

end Mailroom
