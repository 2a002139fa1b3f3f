import Mailroom.Message.Summary
import Mailroom.Rules.File
import Mailroom.Rules.Run
import Mailroom.Text.Casing

/-! Accounts: what someone can do with their mail.

Every operation opens a session of its own and logs out when it is done. What the server can
do and which folders there are is asked once and remembered; creating, renaming or deleting a
folder makes the account forget the folders. -/
namespace Mailroom

/-- An account, reached by a connector. -/
structure Account (κ : Type) where
  name : String
  connector : κ
  /-- The folder that rules look at. -/
  inbox : String := "INBOX"
  ruleFiles : List String := []
  /-- What the server can do, once that is known. -/
  capabilities : Option (List Capability) := none
  /-- The folders there are, once they are known. -/
  folders : Option (List Mailbox.Listing) := none
  /-- The seconds spent pausing after changes. -/
  elapsed : Nat := 0

namespace Account

/-- Stands for every folder that can be opened. -/
def allFolders : String := "*"

section
variable {σ : Type} [MailSession σ]

/-- Opens a folder for writing and does something there. -/
def inFolder (folder : String) (op : Mail σ Unit) : Mail σ Unit := do
  let _ ← Mail.query folder (MailSession.selectFolder folder false)
  op

/-- Tells about the messages in a folder that a search describes. -/
def describe (folder : String) (spec : SearchSpec) (mode : MergeMode)
    (attributes : List FetchAttribute) : Mail σ Fetched := do
  let uids ← spec.resolve folder mode
  Mail.query folder (MailSession.fetch uids attributes)

def moveFrom (folder : String) (uids : UidSet) (destination : String) : Mail σ Unit :=
  inFolder folder (Mail.mutate (.moveTo destination) (MailSession.moveOrCopy uids destination))

def deleteFrom (folder : String) (uids : UidSet) : Mail σ Unit :=
  inFolder folder do
    Mail.mutate .delete (MailSession.deleteMessages uids)
    Mail.mutate .expunge (MailSession.expunge uids)

/-- Applies rules to the inbox on a session of its own. Also tells the seconds that were spent
pausing, which count when the rules fail as well. -/
def applyRules (inbox : String) (known : SortedSet String) (rules : List Rule) (dryRun : Bool) :
    Mail σ (Except Failure (List RuleReport) × Nat) := fun session =>
  let (result, elapsed, session) := Rules.run inbox (some known) rules dryRun session
  (.ok (result, elapsed), session)

end

variable {κ σ : Type} [Connector κ σ]

/-- Gives a result that is there already. -/
def settle {α : Type} (result : Except Failure α) : Mail (Account κ) α := fun a => (result, a)

/-- Gives the result of an operation, failures included. -/
def observe {α : Type} (op : Mail (Account κ) α) : Mail (Account κ) (Except Failure α) := fun a =>
  let (result, a) := op a
  (.ok result, a)

/-- Does something with the connector of the account. -/
def onConnector {α : Type} (op : String → Mail κ α) : Mail (Account κ) α := fun a =>
  let (result, connector) := op a.name a.connector
  (result, { a with connector })

/-- Does something on a session of its own. -/
def onSession {α : Type} (op : Mail σ α) : Mail (Account κ) α :=
  onConnector fun name => Connector.withSession name op

/-- Waits, so as not to strain the server. -/
def pause (seconds : Nat) : Mail (Account κ) Unit :=
  modify fun a => { a with elapsed := a.elapsed + seconds }

def getCapabilities : Mail (Account κ) (List Capability) := do
  match (← get).capabilities with
  | some capabilities => pure capabilities
  | none =>
    let capabilities ← onSession (do pure (MailSession.capabilities (← get)) : Mail σ _)
    modify fun a => { a with capabilities := some capabilities }
    pure capabilities

/-- Whether the server can do what goes by this name. -/
def hasCapability (name : String) : Mail (Account κ) Bool := do
  pure ((← getCapabilities).any fun c => c.isNamed name)

def moveSupported : Mail (Account κ) Bool := do
  pure ((← getCapabilities).contains .move)

def getFolders : Mail (Account κ) (List Mailbox.Listing) := do
  match (← get).folders with
  | some folders => pure folders
  | none =>
    let folders ← onSession (Mail.query allFolders (MailSession.listFolders : SessionM σ _))
    modify fun a => { a with folders := some folders }
    pure folders

/-- The folders that a word selects. -/
def resolveFolders (selector : String) : Mail (Account κ) (List String) := do
  if selector = allFolders then
    pure (((← getFolders).filter Mailbox.Listing.isSelectable).map Mailbox.Listing.name)
  else pure [selector]

def forgetFolders : Mail (Account κ) Unit := modify fun a => { a with folders := none }

def createFolder (name : String) : Mail (Account κ) Unit := do
  forgetFolders
  onSession (Mail.mutate (.create name) (MailSession.createFolder name : SessionM σ Unit))

def renameFolder (old new : String) : Mail (Account κ) Unit := do
  forgetFolders
  onSession (Mail.mutate (.rename old new) (MailSession.renameFolder old new : SessionM σ Unit))

def deleteFolder (name : String) : Mail (Account κ) Unit := do
  forgetFolders
  onSession (Mail.mutate (.deleteFolder name) (MailSession.deleteFolder name : SessionM σ Unit))

/-- The messages in a folder that a search describes. -/
def search (folder : String) (spec : SearchSpec) (mode : MergeMode) : Mail (Account κ) UidSet :=
  onSession (spec.resolve folder mode : Mail σ UidSet)

/-- What the server tells about the messages in a folder that a search describes. -/
def tellAbout (folder : String) (spec : SearchSpec) (mode : MergeMode)
    (attributes : List FetchAttribute) : Mail (Account κ) Fetched :=
  onSession (describe folder spec mode attributes : Mail σ Fetched)

/-- The summaries of the messages in a folder that a search describes. -/
def summaries (folder : String) (spec : SearchSpec) (mode : MergeMode) :
    Mail (Account κ) (List Summary) := do
  let told ← tellAbout folder spec mode Summary.attributes
  pure (told.entries.map fun (uid, items) => Summary.ofItems uid items)

/-- The sender that is told of a message. -/
def senderOf (items : List FetchItem) : Option String :=
  items.findSome? fun
    | .envelope e => e.from.head?.bind Address.email?
    | _ => none

/-- How often each sender occurs, in small letters. -/
def countSenders (told : List (List FetchItem)) : SortedMap String Nat :=
  let count := fun (counts : SortedMap String Nat) sender =>
    counts.insert sender ((counts.find? sender).getD 0 + 1)
  ((told.filterMap senderOf).map Casing.lower).foldl count .empty

/-- Whether one sender with its count comes before another, or is the same: the less frequent
comes first, and among equals the one whose address comes first. -/
def comesFirst (a b : String × Nat) : Bool :=
  a.2 < b.2 || (a.2 == b.2 && compare a.1 b.1 != .gt)

/-- The senders of the messages in a folder that a search describes, with how many messages
are from each, the least frequent first. -/
def uniqueSenders (folder : String) (spec : SearchSpec) (mode : MergeMode) :
    Mail (Account κ) (List (String × Nat)) := do
  let told ← tellAbout folder spec mode [.envelope]
  pure ((countSenders told.values).entries.mergeSort comesFirst)

def moveMessages (folder : String) (uids : UidSet) (destination : String) :
    Mail (Account κ) Unit := do
  onSession (moveFrom folder uids destination : Mail σ Unit)
  pause Rules.pacing

def deleteMessages (folder : String) (uids : UidSet) : Mail (Account κ) Unit := do
  onSession (deleteFrom folder uids : Mail σ Unit)
  pause Rules.pacing

/-- Whether the folders may no longer be those that are remembered. -/
def isStale (dryRun : Bool) : Except Failure (List RuleReport) → Bool
  | .ok reports => reports.any RuleReport.createdFolder
  | .error _ => !dryRun

/-- The result of rules whose session could be opened, or the failure to open it. -/
def outcomeOf {α : Type} : Except Failure (Except Failure α × Nat) → Except Failure α × Nat
  | .ok result => result
  | .error failure => (.error failure, 0)

/-- Applies the account's rules to its inbox. Without rules nothing is asked of the server. -/
def processRules (files : Files) (dryRun : Bool) : Mail (Account κ) (List RuleReport) := do
  let rules ← settle (Rules.load files (← get).ruleFiles)
  if rules.isEmpty then pure []
  else
    let known := SortedSet.ofList ((← getFolders).map Mailbox.Listing.name)
    let inbox := (← get).inbox
    let attempt ← observe (onSession (applyRules inbox known rules dryRun : Mail σ _))
    let (outcome, elapsed) := outcomeOf attempt
    pause elapsed
    if isStale dryRun outcome then forgetFolders
    settle outcome

end Account

end Mailroom
