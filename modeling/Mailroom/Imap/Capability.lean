import Mailroom.Text.Ascii

/-! What a server says it can do.

Capabilities are read without regard to letter case. Those the client acts on have a
constructor each; the others keep the server's spelling, so that they can still be asked
about by name. -/
namespace Mailroom

/-- One capability. -/
inductive Capability
  | imap4rev1
  | imap4rev2
  | uidPlus
  | move
  | literalPlus
  | startTls
  | loginDisabled
  /-- A way to authenticate, in capitals. -/
  | auth (mechanism : String)
  /-- Any other capability, as the server spells it. -/
  | other (name : String)
  deriving DecidableEq, Repr

namespace Capability

def read (word : String) : Capability :=
  match Ascii.upper word with
  | "IMAP4REV1" => imap4rev1
  | "IMAP4REV2" => imap4rev2
  | "UIDPLUS" => uidPlus
  | "MOVE" => move
  | "LITERAL+" => literalPlus
  | "STARTTLS" => startTls
  | "LOGINDISABLED" => loginDisabled
  | upper =>
    match Ascii.after? "AUTH=" upper with
    | some mechanism => auth mechanism
    | none => other word

def text : Capability → String
  | imap4rev1 => "IMAP4rev1"
  | imap4rev2 => "IMAP4rev2"
  | uidPlus => "UIDPLUS"
  | move => "MOVE"
  | literalPlus => "LITERAL+"
  | startTls => "STARTTLS"
  | loginDisabled => "LOGINDISABLED"
  | auth mechanism => "AUTH=" ++ mechanism
  | other name => name

/-- Whether the capability goes by this name, in any letter case. -/
def isNamed (c : Capability) (name : String) : Bool := Ascii.same c.text name

end Capability

end Mailroom
