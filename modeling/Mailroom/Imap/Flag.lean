import Mailroom.Text.Ascii

/-! Message flags.

System flags begin with a backslash and are read without regard to letter case; every
other flag is a keyword and keeps its spelling. -/
namespace Mailroom

/-- One flag of a message. -/
inductive Flag
  | seen
  | answered
  | flagged
  | deleted
  | draft
  | recent
  | keyword (name : String)
  deriving DecidableEq, Repr

namespace Flag

def read (word : String) : Flag :=
  match Ascii.upper word with
  | "\\SEEN" => seen
  | "\\ANSWERED" => answered
  | "\\FLAGGED" => flagged
  | "\\DELETED" => deleted
  | "\\DRAFT" => draft
  | "\\RECENT" => recent
  | _ => keyword word

def text : Flag → String
  | seen => "\\Seen"
  | answered => "\\Answered"
  | flagged => "\\Flagged"
  | deleted => "\\Deleted"
  | draft => "\\Draft"
  | recent => "\\Recent"
  | keyword name => name

/-- Whether the flag is not one of the system flags. -/
def isKeyword : Flag → Bool
  | keyword _ => true
  | _ => false

end Flag

end Mailroom
