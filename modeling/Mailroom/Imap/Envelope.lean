import Mailroom.Imap.Value

/-! The header fields of a message, as a server reports them. -/
namespace Mailroom

/-- A person or a list that mail comes from or goes to. -/
structure Address where
  name : Option String := none
  /-- What stands before the `@`. -/
  mailbox : Option String := none
  /-- What stands after the `@`. -/
  host : Option String := none
  deriving DecidableEq, Repr, Inhabited

namespace Address

/-- The address in its usual form, or only what stands before the `@` if there is no more. -/
def email? (a : Address) : Option String :=
  match a.mailbox, a.host with
  | some mailbox, some host => some (mailbox ++ "@" ++ host)
  | some mailbox, none => some mailbox
  | none, _ => none

/-- The address with the given fields: a name, a route that is passed over, and the two
sides of the `@`. -/
def ofFields (fields : List Value) : Address where
  name := fields[0]?.bind Value.text?
  mailbox := fields[2]?.bind Value.text?
  host := fields[3]?.bind Value.text?

/-- The addresses in a list. The marks around a group have no mailbox and are left out. -/
def ofValue (v : Option Value) : List Address :=
  let members := (v.bind Value.items?).getD []
  ((members.filterMap Value.items?).map ofFields).filter fun a => a.mailbox.isSome

end Address

/-- The header fields of a message. -/
structure Envelope where
  date : Option String := none
  subject : Option String := none
  sender : List Address := []
  «from» : List Address := []
  replyTo : List Address := []
  «to» : List Address := []
  cc : List Address := []
  bcc : List Address := []
  inReplyTo : Option String := none
  messageId : Option String := none
  deriving DecidableEq, Repr, Inhabited

/-- The header fields in a list of ten. Fields that are missing count as absent. -/
def Envelope.ofValues (values : List Value) : Envelope where
  date := values[0]?.bind Value.text?
  subject := values[1]?.bind Value.text?
  «from» := Address.ofValue values[2]?
  sender := Address.ofValue values[3]?
  replyTo := Address.ofValue values[4]?
  «to» := Address.ofValue values[5]?
  cc := Address.ofValue values[6]?
  bcc := Address.ofValue values[7]?
  inReplyTo := values[8]?.bind Value.text?
  messageId := values[9]?.bind Value.text?

end Mailroom
