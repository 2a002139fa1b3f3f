import Mailroom.Text.Split

/-! Senders that write to many.

Mass mailers tend to send from long generated domains, so a sender with a long domain is
taken for one. -/
namespace Mailroom.Bulk

/-- What someone writes in place of an address to mean bulk senders. -/
def sentinel : String := "@@"

/-- The longest domain of an ordinary sender. -/
def longestDomain : Nat := 32

/-- Whether a text has the sentinel in it. -/
def hasSentinel : List Char → Bool
  | '@' :: '@' :: _ => true
  | _ :: rest => hasSentinel rest
  | [] => false

/-- Whether an address looks like that of a bulk sender. -/
def isBulkSender (address : String) : Bool :=
  match Split.afterLast? '@' address.toList with
  | some domain => longestDomain < domain.length
  | none => false

end Mailroom.Bulk
