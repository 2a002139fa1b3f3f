import Mailroom.Config.Basic
import Mailroom.Config.HostName
import Mailroom.Text.Quoted

/-! What it takes to reach an account's server and to log in. -/
namespace Mailroom

/-- A server and the credentials for it. -/
structure Access where
  host : String
  port : Nat
  security : Security
  username : String
  password : String
  deriving DecidableEq

namespace Access

/-- The access that the settings of an account give. They have to be without problems, and
to hold a password. -/
def ofConfig (name : String) (a : AccountConfig) : Except Failure Access :=
  match a.problems, a.password with
  | [], some password => pure ⟨a.host, a.effectivePort, a.security, a.username, password⟩
  | [], none => throw (.config (.noPassword name))
  | problems, _ => throw (.config (.badSettings name problems))

/-- The access as it is shown, without the password. -/
def shown (a : Access) : String :=
  "ImapConnector \x7b host: " ++ Quoted.quote a.host ++ ", port: " ++ Decimal.text a.port ++
    ", security: " ++ a.security.shown ++ ", username: " ++ Quoted.quote a.username ++ ", .. \x7d"

/-- Why no connection is tried, if none is. -/
def refusal? (a : Access) : Option SessionError :=
  match a.security with
  | .startTls => some (.unsupportedSecurity .startTls)
  | .tls => if HostName.isValid a.host then none else some (.imap .invalidDnsName)
  | .none => none

end Access

end Mailroom
