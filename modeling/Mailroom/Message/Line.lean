import Mailroom.Message.Summary

/-! The lines of a listing. -/
namespace Mailroom.Line

/-- A text with blanks in front, up to the given width. -/
def alignRight (width : Nat) (text : String) : String :=
  String.ofList (List.replicate (width - text.length) ' ' ++ text.toList)

/-- A text with blanks behind it, up to the given width. -/
def alignLeft (width : Nat) (text : String) : String :=
  String.ofList (text.toList ++ List.replicate (width - text.length) ' ')

/-- A text that fits the given width. One that is longer ends in a tilde. -/
def fit (width : Nat) (text : String) : String :=
  if text.length ≤ width then text else String.ofList (text.toList.take (width - 1) ++ ['~'])

/-- How wide a number is shown. -/
def numberWidth : Nat := 6

/-- How wide a sender is shown. -/
def senderWidth : Nat := 32

/-- A mark where a condition holds, and else a blank. -/
def mark (condition : Bool) (sign : Char) : Char := if condition then sign else ' '

/-- What the line of a message says about its attachments, unless their size cannot be counted. -/
def attachmentText (s : Summary) : Option String :=
  if s.attachments.isEmpty then some ""
  else s.attachmentSize.map fun size =>
    let files := if s.attachments.length = 1 then "file" else "files"
    " [" ++ Decimal.text s.attachments.length ++ " " ++ files ++ ", " ++ Size.text size ++ "]"

/-- The line of a message: marks for unread, answered and flagged, identifier, date, a mark
for attachments, sender, subject and what there is attached. There is no line if the size of the
attachments cannot be counted. -/
def ofMessage (s : Summary) (showNames : Bool) : Option String :=
  let marks := String.ofList [mark (!s.seen) '*', mark s.answered 'R', mark s.flagged 'F']
  let date := s.date.elim "----------" fun t => t.date.text
  let attached := String.ofList [mark (!s.attachments.isEmpty) '@']
  let sender := if showNames then s.sender else s.address
  (attachmentText s).map fun files =>
    marks ++ " " ++ alignRight numberWidth s.uid.text ++ " " ++ date ++ " " ++ attached ++ " " ++
      alignLeft senderWidth (fit senderWidth sender) ++ " " ++ s.subject ++ files

/-- The line that tells how many messages were listed. -/
def ofCount (n : Nat) : String :=
  if n = 1 then "1 message" else Decimal.text n ++ " messages"

/-- The line of a sender from whom there are `n` messages. -/
def ofSender (address : String) (n : Nat) : String :=
  alignRight numberWidth (Decimal.text n) ++ " " ++ address

end Mailroom.Line
