import Mailroom.Imap.Capability
import Mailroom.Imap.Cursor
import Mailroom.Imap.FetchItem
import Mailroom.Imap.Mailbox
import Mailroom.Imap.MailboxName
import Mailroom.Text.Blank

/-! What a server says.

A response completes a command, tells something on its own, or asks for the next piece of a
command. `Response.read` understands one whole response, the strings of announced length
included. -/
namespace Mailroom

/-- How something went. -/
inductive Condition
  | ok
  | no
  | bad
  | preauth
  | bye
  deriving DecidableEq, Repr

/-- The condition a word names, in any letter case. -/
def Condition.read? (word : String) : Option Condition :=
  match Ascii.upper word with
  | "OK" => some ok
  | "NO" => some no
  | "BAD" => some bad
  | "PREAUTH" => some preauth
  | "BYE" => some bye
  | _ => none

def Condition.text : Condition → String
  | ok => "OK"
  | no => "NO"
  | bad => "BAD"
  | preauth => "PREAUTH"
  | bye => "BYE"

/-- The remark in brackets that may come before the text of a condition. -/
inductive Code
  | capability (capabilities : List Capability)
  | uidValidity (n : Nat)
  | uidNext (n : Nat)
  | readOnly
  | readWrite
  /-- The mailbox in question has to be created first. -/
  | tryCreate
  | other (name : String)
  deriving DecidableEq, Repr

/-- What a server tells without completing a command. -/
inductive Untagged
  | condition (condition : Condition) (code : Option Code) (text : String)
  | capability (capabilities : List Capability)
  | listing (entry : Mailbox.Listing)
  /-- The messages found. -/
  | search (numbers : List Nat)
  | flags (flags : List Flag)
  | count (n : Nat)
  | recent (n : Nat)
  | expunge (n : Nat)
  | fetch (number : Nat) (items : List FetchItem)
  /-- Anything the client has no use for. -/
  | other (name : String)
  deriving BEq

/-- One response. -/
inductive Response
  /-- The completion of the command with this tag. -/
  | tagged (tag : String) (condition : Condition) (code : Option Code) (text : String)
  | untagged (data : Untagged)
  /-- The server is ready for the next piece of a command. -/
  | continuation (text : String)
  deriving BEq

namespace Response
open Cursor

/-- Fails for a reason that is found once the pieces are understood. -/
def reject {α : Type} (reason : Reason) : Reader α := fun _ => .error (.malformed 0 reason)

/-- What has been understood, or the reason why it was not. -/
def understood {α : Type} (x : Except Reason α) : Reader α := fun c =>
  match x with
  | .ok a => .ok (a, c)
  | .error reason => reject reason c

/-- The texts of words and strings, leaving out the other values. -/
def texts (values : List Value) : List String := values.filterMap Value.text?

/-- A second value that is a number of 32 bits. -/
def codeNumber? (values : List Value) : Option Nat :=
  (values[1]?.bind Value.number?).filter (· < UInt32.size)

/-- The code that the values in brackets make up. -/
def codeOf (values : List Value) : Code :=
  match values.head?.bind Value.text? with
  | none => .other ""
  | some name =>
    match Ascii.upper name with
    | "CAPABILITY" => .capability ((texts values.tail).map Capability.read)
    | "UIDVALIDITY" => ((codeNumber? values).map Code.uidValidity).getD (.other name)
    | "UIDNEXT" => ((codeNumber? values).map Code.uidNext).getD (.other name)
    | "READ-ONLY" => .readOnly
    | "READ-WRITE" => .readWrite
    | "TRYCREATE" => .tryCreate
    | _ => .other name

/-- One of the numbers that a search found. -/
def foundNumber (word : String) : Except Reason Nat :=
  match Decimal.unsigned? UInt32.size word with
  | some n => pure n
  | none => throw (.badSearchResult word)

/-- The numbers that a search found. A remark in parentheses ends them. -/
def found (rest : String) : Except Reason (List Nat) :=
  ((Blank.words rest).takeWhile fun word => !Ascii.startsWith "(" word).mapM foundNumber

section
-- As in readers of values, `announced` reads strings of announced length.
variable (announced : Reader Value)

/-- What follows a condition: a code in brackets, or none, and a text. -/
def codeAndText : Reader (Option Code × String) := do
  let _ ← eat Octet.space
  if ← eat Octet.openBracket then
    let inside ← values announced Octet.closeBracket
    let _ ← eat Octet.space
    pure (some (codeOf inside), ← restOfLine)
  else pure (none, ← restOfLine)

/-- Values in parentheses, after a space. -/
def spacedList : Reader (List Value) := do
  expect Octet.space
  expect Octet.openParen
  values announced Octet.closeParen

/-- A listed mailbox: attributes, delimiter and name. -/
def listing : Reader Mailbox.Listing := do
  let attributes := (texts (← spacedList announced)).map Mailbox.Attribute.read
  expect Octet.space
  let delimiter := (← value announced).text?.bind fun s => s.toList.head?
  expect Octet.space
  match (← string announced).text? with
  | none => reject .listingWithoutName
  | some written =>
    match MailboxName.decode written with
    | some name => pure ⟨attributes, delimiter, name⟩
    | none => fun _ => .error (.unreadable .mailboxName)

/-- What a server tells about the message, or the number of messages, `n`. -/
def numbered (n : Nat) : Reader Untagged := do
  expect Octet.space
  let keyword := Ascii.upper (← word)
  match keyword with
  | "EXISTS" => pure (.count n)
  | "RECENT" => pure (.recent n)
  | "EXPUNGE" => pure (.expunge n)
  | "FETCH" => do
    let items ← spacedList announced
    pure (.fetch n (← understood (FetchItem.readAll items)))
  | _ => pure (.other keyword)

/-- What a server tells under a keyword. -/
def keyed (keyword : String) : Reader Untagged := do
  match keyword with
  | "CAPABILITY" => pure (.capability ((Blank.words (← restOfLine)).map Capability.read))
  | "LIST" | "LSUB" => pure (.listing (← listing announced))
  | "SEARCH" => do
    let rest ← restOfLine
    pure (.search (← understood (found rest)))
  | "FLAGS" => pure (.flags ((texts (← spacedList announced)).map Flag.read))
  | _ => pure (.other keyword)

/-- What a server tells after the star. -/
def untaggedData : Reader Untagged := do
  let first ← word
  match Decimal.unsigned? UInt32.size first with
  | some n => numbered announced n
  | none =>
    match Condition.read? first with
    | some condition => do
      let (code, text) ← codeAndText announced
      pure (.condition condition code text)
    | none => keyed announced (Ascii.upper first)

/-- What follows the tag of a completed command. -/
def completion (tag : String) : Reader Response := do
  let condition ← word
  match Condition.read? condition with
  | none => reject (.unknownStatus condition)
  | some condition => do
    let (code, text) ← codeAndText announced
    pure (.tagged tag condition code text)

def response : Reader Response := do
  if ← eat Octet.plus then
    let _ ← eat Octet.space
    pure (.continuation (← restOfLine))
  else
    let tag ← word
    expect Octet.space
    if tag = "*" then pure (.untagged (← untaggedData announced)) else completion announced tag

end

def read (line : Bytes) : Except Fault Response :=
  (response literal (Cursor.ofBytes line)).map Prod.fst

end Response

end Mailroom
