import Mailroom.Imap.Fault
import Mailroom.Imap.Frame

/-! What can go wrong while talking to a server. -/
namespace Mailroom

/-- A breach of the protocol, by the server or by a request it cannot take. -/
inductive Violation
  | literalTooLong (length : Nat)
  | lineTooLong
  | unexpectedGreeting
  | unexpectedContinuation (command : String)
  /-- The command was completed before all of it was sent. -/
  | completedEarly
  | noMove
  | noUidPlus
  deriving DecidableEq, Repr

def Violation.message : Violation → String
  | literalTooLong length =>
    "literal of " ++ Decimal.text length ++ " bytes exceeds " ++ Decimal.text Frame.maxLiteral
  | lineTooLong => "response line too long"
  | unexpectedGreeting => "unexpected greeting"
  | unexpectedContinuation command => "unexpected continuation request during " ++ command
  | completedEarly => "command completed before its literal was sent"
  | noMove => "server does not support MOVE"
  | noUidPlus => "server does not support UIDPLUS"

/-- Why the transport failed. -/
inductive TransportError
  /-- The server closed the connection. -/
  | closed
  /-- The system reports a failure of its own. -/
  | system (text : String)
  deriving DecidableEq, Repr

def TransportError.message : TransportError → String
  | closed => "connection closed by server"
  | system text => text

/-- What went wrong. -/
inductive ImapError
  | io (cause : TransportError)
  | tls (text : String)
  | invalidDnsName
  | fault (fault : Fault)
  /-- The server refuses the credentials. -/
  | auth (text : String)
  | no (text : String)
  | bad (text : String)
  | bye (text : String)
  | protocol (violation : Violation)
  deriving DecidableEq, Repr

def ImapError.message : ImapError → String
  | io cause => "I/O error: " ++ cause.message
  | tls text => "TLS error: " ++ text
  | invalidDnsName => "Invalid DNS name: invalid dns name"
  | fault f => f.message
  | auth text => "Authentication failed: " ++ text
  | no text => "Server returned NO: " ++ text
  | bad text => "Server returned BAD: " ++ text
  | bye text => "Server sent BYE: " ++ text
  | protocol violation => "Protocol error: " ++ violation.message

/-- The error that lies behind this one, in words, if there is one. -/
def ImapError.cause? : ImapError → Option String
  | io cause => some cause.message
  | tls text => some text
  | invalidDnsName => some "invalid dns name"
  | _ => none

/-- What the end of the frames means to whoever waits for a response. -/
def FrameError.toError : FrameError → ImapError
  | closed => .io .closed
  | literalTooLong length => .protocol (.literalTooLong length)
  | lineTooLong => .protocol .lineTooLong

end Mailroom
