import Mailroom.Text.Ascii

/-! What a server says about its mailboxes. -/
namespace Mailroom

namespace Mailbox

/-- A remark on a listed mailbox. -/
inductive Attribute
  | noSelect
  | nonExistent
  | hasChildren
  | hasNoChildren
  | junk
  | trash
  | sent
  | drafts
  | archive
  | other (name : String)
  deriving DecidableEq, Repr

/-- The attribute a word names, in any letter case. Junk has an older name as well. -/
def Attribute.read (word : String) : Attribute :=
  match Ascii.upper word with
  | "\\NOSELECT" => noSelect
  | "\\NONEXISTENT" => nonExistent
  | "\\HASCHILDREN" => hasChildren
  | "\\HASNOCHILDREN" => hasNoChildren
  | "\\JUNK" => junk
  | "\\SPAM" => junk
  | "\\TRASH" => trash
  | "\\SENT" => sent
  | "\\DRAFTS" => drafts
  | "\\ARCHIVE" => archive
  | _ => other word

/-- One listed mailbox, its name decoded. A flat hierarchy has no delimiter. -/
structure Listing where
  attributes : List Attribute
  delimiter : Option Char
  name : String
  deriving DecidableEq

/-- Whether the mailbox can be opened, and is not only a place in the hierarchy. -/
def Listing.isSelectable (entry : Listing) : Bool :=
  !entry.attributes.any fun a => a == .noSelect || a == .nonExistent

/-- What the server reports when a mailbox is opened. -/
structure Status where
  count : Nat := 0
  uidValidity : Option Nat := none
  uidNext : Option Nat := none
  readOnly : Bool := false
  deriving DecidableEq

end Mailbox

end Mailroom
