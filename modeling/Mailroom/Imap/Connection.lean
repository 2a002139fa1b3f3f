import Mailroom.Imap.Command
import Mailroom.Imap.Error
import Mailroom.Imap.Response
import Mailroom.Imap.Tag

/-! A connection, and the exchange of one command for its answer.

A `Connection` holds the frames the server sends and the client has not looked at, what the
client has written, and what it knows of the server. `execute` writes a command and reads
until its completion. On the way it keeps what the server tells, skips completions of other
commands and lines that make no sense, and remembers the first line of data that makes no
sense, which fails the command in the end. -/
namespace Mailroom

/-- A connection to a server. -/
structure Connection where
  /-- Frames that have not been looked at. -/
  incoming : List Bytes
  /-- What every attempt to read meets after those. -/
  ending : FrameError
  /-- What has been written, piece by piece, latest first. -/
  written : List Bytes := []
  tags : TagSource := {}
  /-- What the server last said it can do. -/
  capabilities : List Capability := []
  deriving DecidableEq

/-- What a server told while a command ran, and the code of its completion. -/
structure Answer where
  untagged : List Untagged
  code : Option Code

namespace Connection

def sent (c : Connection) : Bytes := c.written.reverse.flatten

def has (c : Connection) (capability : Capability) : Bool := c.capabilities.contains capability

/-- The connection after a piece has been written. -/
def write (c : Connection) (piece : Bytes) : Connection := { c with written := piece :: c.written }

/-- The connection once a code has been noticed. -/
def notice (c : Connection) (code : Option Code) : Connection :=
  match code with
  | some (.capability capabilities) => { c with capabilities }
  | _ => c

/-- The connection once the server has told something. -/
def observe (c : Connection) (data : Untagged) : Connection :=
  match data with
  | .capability capabilities => { c with capabilities }
  | .condition .bye _ _ => c
  | .condition _ code _ => c.notice code
  | _ => c

/-- What a frame means while the command with the given tag runs. -/
inductive Heard
  | response (response : Response)
  /-- Data that makes no sense. -/
  | malformed (fault : Fault)
  /-- The completion of this command, which makes no sense, or a line that cannot be read. -/
  | broken (fault : Fault)
  /-- Nothing that concerns this command. -/
  | nothing

/-- Whether a frame completes the command with the given tag, as far as its first bytes
tell. -/
def isFor (tag : String) (frame : Bytes) : Bool :=
  (Utf8.encode tag ++ [Octet.space]).isPrefixOf frame

/-- Whether a frame tells something on its own. -/
def isData (frame : Bytes) : Bool := [Octet.star, Octet.space].isPrefixOf frame

/-- What a frame means while the command with the given tag runs. -/
def hear (tag : String) (frame : Bytes) : Heard :=
  match Response.read frame with
  | .ok (.tagged other condition code text) =>
    if other = tag then .response (.tagged other condition code text) else .nothing
  | .ok response => .response response
  | .error (.unreadable cause) => .broken (.unreadable cause)
  | .error fault =>
    if isFor tag frame then .broken fault
    else if isData frame then .malformed fault
    else .nothing

/-- What a condition makes of a command. -/
def check (condition : Condition) (text : String) : Except ImapError Unit :=
  match condition with
  | .ok | .preauth => pure ()
  | .no => throw (.no text)
  | .bad => throw (.bad text)
  | .bye => throw (.bye text)

/-- A command that is being exchanged: the parts that are not sent, what the server told
(latest first), the farewell it sent, and the first data that made no sense. -/
structure Exchange where
  unsent : List Bytes
  untagged : List Untagged := []
  farewell : Option String := none
  malformed : Option Fault := none

/-- The exchange once the server has told something. -/
def Exchange.note (x : Exchange) (data : Untagged) : Exchange :=
  let farewell := match data with
    | .condition .bye _ text => some text
    | _ => x.farewell
  { x with untagged := data :: x.untagged, farewell }

/-- The answer of a command that is completed. -/
def Exchange.finish (x : Exchange) (condition : Condition) (code : Option Code) (text : String) :
    Except ImapError Answer := do
  check condition text
  match x.unsent, x.malformed with
  | _ :: _, _ => throw (.protocol .completedEarly)
  | [], some fault => throw (.fault fault)
  | [], none => pure ⟨x.untagged.reverse, code⟩

/-- What the end of the frames makes of a command. A server that has said farewell is
expected to close the connection. -/
def Exchange.cutOff (x : Exchange) (ending : FrameError) : ImapError :=
  match ending, x.farewell with
  | .closed, some text => .bye text
  | _, _ => ending.toError

/-- Reads until the command is completed, sending a part whenever the server asks for it. -/
def converse (command : Command) (tag : String) (x : Exchange) (c : Connection) :
    List Bytes → Except ImapError Answer × Connection
  | [] => (.error (x.cutOff c.ending), { c with incoming := [] })
  | frame :: rest =>
    match hear tag frame with
    | .nothing => converse command tag x c rest
    | .malformed fault =>
      converse command tag { x with malformed := x.malformed.or (some fault) } c rest
    | .broken fault => (.error (.fault fault), { c with incoming := rest })
    | .response (.untagged data) => converse command tag (x.note data) (c.observe data) rest
    | .response (.tagged _ condition code text) =>
      let c := if x.unsent.isEmpty then c.notice code else c
      (x.finish condition code text, { c with incoming := rest })
    | .response (.continuation _) =>
      match x.unsent with
      | part :: unsent => converse command tag { x with unsent } (c.write part) rest
      | [] => (.error (.protocol (.unexpectedContinuation command.name)), { c with incoming := rest })

/-- Sends a command and reads its answer. -/
def execute (c : Connection) (command : Command) : Except ImapError Answer × Connection :=
  let tag := c.tags.current
  let c := { c with tags := c.tags.advance }
  match command.request tag (c.has .literalPlus) with
  | [] => converse command tag ⟨[], [], none, none⟩ c c.incoming
  | part :: unsent => converse command tag ⟨unsent, [], none, none⟩ (c.write part) c.incoming

/-- The connection that a greeting begins. -/
def greet (incoming : List Bytes) (ending : FrameError) : Except ImapError Connection :=
  match incoming with
  | [] => throw ending.toError
  | frame :: rest =>
    match Response.read frame with
    | .error fault => throw (.fault fault)
    | .ok (.untagged (.condition .ok code _)) => pure (notice ⟨rest, ending, [], {}, []⟩ code)
    | .ok (.untagged (.condition .preauth code _)) => pure (notice ⟨rest, ending, [], {}, []⟩ code)
    | .ok (.untagged (.condition .bye _ text)) => throw (.bye text)
    | .ok _ => throw (.protocol .unexpectedGreeting)

/-- The connection to a server that sends these chunks and then closes. -/
def ofChunks (chunks : List Bytes) : Except ImapError Connection :=
  let (incoming, ending) := Frame.ofChunks chunks
  greet incoming ending

end Connection

end Mailroom
