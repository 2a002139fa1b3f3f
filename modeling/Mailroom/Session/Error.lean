import Mailroom.Config.Security
import Mailroom.Imap.Error

/-! What can go wrong in a session. -/
namespace Mailroom

/-- Why a server turns a request down. -/
inductive Rejection
  /-- The command was told to fail. -/
  | failing (command : String)
  | readOnly
  /-- There is no mailbox to put messages into. -/
  | noDestination (mailbox : String)
  | noMailbox (mailbox : String)
  | mailboxExists (mailbox : String)
  | undeletable (mailbox : String)
  deriving DecidableEq, Repr

def Rejection.message : Rejection → String
  | failing command => command ++ " failed"
  | readOnly => "mailbox is read-only"
  | noDestination mailbox => "[TRYCREATE] no such mailbox " ++ mailbox
  | noMailbox mailbox => "no such mailbox " ++ mailbox
  | mailboxExists mailbox => "mailbox " ++ mailbox ++ " already exists"
  | undeletable mailbox => "cannot delete " ++ mailbox

/-- What went wrong. -/
inductive SessionError
  | imap (error : ImapError)
  /-- The server refused the credentials. -/
  | login (text : String)
  | unsupportedSecurity (security : Security)
  | noFolderSelected
  /-- The session was lost after an earlier failure. -/
  | closed
  | rejected (rejection : Rejection)
  deriving DecidableEq, Repr

namespace SessionError

def message : SessionError → String
  | imap error => error.message
  | login text => "Login rejected: " ++ text
  | unsupportedSecurity security =>
    "Security mode " ++ security.shown ++ " not supported: use tls or none"
  | noFolderSelected => "No folder selected"
  | closed => "Session is closed"
  | rejected rejection => "Request rejected: " ++ rejection.message

/-- The error that lies behind this one, in words, if there is one. -/
def cause? : SessionError → Option String
  | imap error => error.cause?
  | _ => none

end SessionError

end Mailroom
