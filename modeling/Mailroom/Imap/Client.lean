import Mailroom.Imap.Connection

/-! What a client does over a connection.

Each request writes one command and makes sense of its answer. A request can fail and still
have changed the connection, so it maps a connection to a result and a connection. Which
requests make sense depends on the `Phase` of the connection. -/
namespace Mailroom

/-- A request, over a connection. -/
abbrev Talk (α : Type) := ExceptT ImapError (StateM Connection) α

/-- How far a client has come. -/
inductive Client.Phase
  | greeted
  | loggedIn
  /-- A mailbox is open. -/
  | opened (mailbox : String) (status : Mailbox.Status)
  deriving DecidableEq

/-- Whether mailboxes can be managed. -/
def Client.Phase.isLoggedIn : Client.Phase → Bool
  | greeted => false
  | _ => true

/-- Whether messages can be reached. -/
def Client.Phase.isOpen : Client.Phase → Bool
  | opened .. => true
  | _ => false

namespace Client

/-- Sends a command and reads its answer. -/
def ask (command : Command) : Talk Answer := fun c => c.execute command

/-- Sends a command of whose answer only the success matters. -/
def tell (command : Command) : Talk Unit := do let _ ← ask command

def capability : Talk (List Capability) := do
  tell .capability
  pure (← get).capabilities

/-- Refuses the credentials where the server refuses them. -/
def asRefusal : ImapError → ImapError
  | .no text => .auth text
  | .bad text => .auth text
  | e => e

def login (username password : String) : Talk Unit := do
  if (← get).has .loginDisabled then throw (.auth "server has disabled LOGIN")
  tryCatch (tell (.login username password)) fun e => throw (asRefusal e)

/-- Ends the conversation. A server that hangs up after its farewell has done so. -/
def logout : Talk Unit :=
  tryCatch (tell .logout) fun e =>
    match e with
    | .bye _ => pure ()
    | e => throw e

def list (reference pattern : String) : Talk (List Mailbox.Listing) := do
  let answer ← ask (.list reference pattern)
  pure (answer.untagged.filterMap fun
    | .listing entry => some entry
    | _ => none)

def create (mailbox : String) : Talk Unit := tell (.create mailbox)

def delete (mailbox : String) : Talk Unit := tell (.delete mailbox)

def rename (old new : String) : Talk Unit := tell (.rename old new)

/-- The status once the server has told something while opening a mailbox. -/
def observeStatus (status : Mailbox.Status) : Untagged → Mailbox.Status
  | .count n => { status with count := n }
  | .condition _ (some (.uidValidity n)) _ => { status with uidValidity := some n }
  | .condition _ (some (.uidNext n)) _ => { status with uidNext := some n }
  | _ => status

/-- What the answer to opening a mailbox says about it. -/
def statusOf (readOnly : Bool) (answer : Answer) : Mailbox.Status :=
  let status := answer.untagged.foldl observeStatus { readOnly }
  if answer.code = some .readOnly then { status with readOnly := true } else status

/-- Opens a mailbox, for reading only or for writing as well. -/
def openMailbox (mailbox : String) (readOnly : Bool) : Talk Mailbox.Status := do
  let answer ← ask (if readOnly then .examine mailbox else .select mailbox)
  pure (statusOf readOnly answer)

/-- The messages to which every key applies, as the server lists them. -/
def search (keys : List SearchKey) : Talk (List Uid) := do
  let answer ← ask (.search keys)
  let numbers := answer.untagged.filterMap fun
    | .search numbers => some numbers
    | _ => none
  pure (numbers.flatten.filterMap Uid.ofNat?)

/-- What the server tells about the given messages, response by response. -/
def fetch (uids : UidSet) (attributes : List FetchAttribute) : Talk (List (List FetchItem)) := do
  let answer ← ask (.fetch uids attributes)
  pure (answer.untagged.filterMap fun
    | .fetch _ items => some items
    | _ => none)

def addFlags (uids : UidSet) (flags : List Flag) : Talk Unit := tell (.addFlags uids flags)

def copy (uids : UidSet) (mailbox : String) : Talk Unit := tell (.copy uids mailbox)

/-- Fails unless the server said it can do this. -/
def require (capability : Capability) (violation : Violation) : Talk Unit := do
  if !(← get).has capability then throw (.protocol violation)

/-- Moves messages to another mailbox, with the server's own command. -/
def move (uids : UidSet) (mailbox : String) : Talk Unit := do
  require .move .noMove
  tell (.move uids mailbox)

/-- The numbers of the messages that the server reports as gone. -/
def expunged (answer : Answer) : List Nat :=
  answer.untagged.filterMap fun
    | .expunge n => some n
    | _ => none

/-- Removes every message that is marked deleted. -/
def expunge : Talk (List Nat) := expunged <$> ask .expunge

/-- Removes those of the given messages that are marked deleted. -/
def expungeOnly (uids : UidSet) : Talk (List Nat) := do
  require .uidPlus .noUidPlus
  expunged <$> ask (.expungeOnly uids)

end Client

end Mailroom
