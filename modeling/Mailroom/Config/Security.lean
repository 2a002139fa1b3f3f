/-! How the connection to a server is protected. -/
namespace Mailroom

/-- How the connection to a server is protected. -/
inductive Security
  /-- Not at all. -/
  | none
  /-- From the first byte on. -/
  | tls
  /-- From the moment both sides agree on it. The client cannot do this. -/
  | startTls
  deriving DecidableEq, Repr, Inhabited

namespace Security

/-- The port that servers use for it. -/
def defaultPort : Security → Nat
  | tls => 993
  | none => 143
  | startTls => 143

def shown : Security → String
  | none => "None"
  | tls => "Tls"
  | startTls => "StartTls"

def read? : String → Option Security
  | "none" => some none
  | "tls" => some tls
  | "starttls" => some startTls
  | _ => Option.none

end Security

end Mailroom
