import Mailroom.Rules.Report
import Mailroom.Search.Resolve

/-! Applying rules to an inbox.

Rules are applied in order, each to the messages that it finds when its turn comes. A run
keeps the names of the folders it knows of, and the time it has spent pausing: after every
change it waits, so as not to strain the server. A dry run reports what it finds and changes
nothing, so each of its rules finds the messages that earlier ones would have taken, too. -/
namespace Mailroom.Rules
variable {σ : Type} [MailSession σ]

/-- The pause after a change, in seconds. -/
def pacing : Nat := 2

/-- What a run knows: the session, the folders, once they are known, and the seconds it has
paused. -/
structure Run (σ : Type) where
  session : σ
  folders : Option (SortedSet String)
  elapsed : Nat

/-- Does something on the session of the run. -/
def onSession {α : Type} (op : Mail σ α) : Mail (Run σ) α := fun run =>
  let (result, session) := op run.session
  (result, { run with session })

/-- Waits, so as not to strain the server. -/
def pause : Mail (Run σ) Unit := modify fun run => { run with elapsed := run.elapsed + pacing }

/-- The folders there are. They are listed once, unless they are known from the start. -/
def knownFolders (inbox : String) : Mail (Run σ) (SortedSet String) := do
  match (← get).folders with
  | some folders => pure folders
  | none =>
    let listed ← onSession (Mail.query inbox MailSession.listFolders)
    let folders := SortedSet.ofList (listed.map Mailbox.Listing.name)
    modify fun run => { run with folders := some folders }
    pure folders

/-- Creates a folder and remembers that it is there. -/
def provide (folder : String) : Mail (Run σ) Unit := do
  onSession (Mail.mutate (.create folder) (MailSession.createFolder folder))
  modify fun run => { run with folders := run.folders.map fun known => known.insert folder }

/-- Moves messages, to a folder that is created if it is missing. Says whether it was. -/
def moveTo (inbox : String) (dryRun : Bool) (uids : UidSet) (folder : String) :
    Mail (Run σ) Bool := do
  let missing := !(← knownFolders inbox).contains folder
  if dryRun then pure missing
  else
    if missing then provide folder
    onSession (Mail.mutate (.moveTo folder) (MailSession.moveOrCopy uids folder))
    pause
    pure missing

/-- Marks messages deleted and removes them. -/
def delete (dryRun : Bool) (uids : UidSet) : Mail (Run σ) Unit := do
  if dryRun then pure ()
  else
    onSession (Mail.mutate .delete (MailSession.deleteMessages uids))
    onSession (Mail.mutate .expunge (MailSession.expunge uids))
    pause

/-- Does one action, and says whether a folder had to be created. -/
def act (inbox : String) (dryRun : Bool) (uids : UidSet) : Action → Mail (Run σ) Bool
  | .move folder => moveTo inbox dryRun uids folder
  | .delete => do
    delete dryRun uids
    pure false

/-- Does the actions of a rule, one after the other. -/
def actAll (inbox : String) (dryRun : Bool) (uids : UidSet) :
    List Action → Mail (Run σ) (List ActionReport)
  | [] => pure []
  | action :: rest => do
    let createdFolder ← act inbox dryRun uids action
    let reports ← actAll inbox dryRun uids rest
    pure (⟨action, uids.size, createdFolder, dryRun⟩ :: reports)

def apply (inbox : String) (dryRun : Bool) (rule : Rule) : Mail (Run σ) RuleReport := do
  let matched ← onSession (rule.spec.resolve inbox rule.merge)
  if matched.isEmpty then pure ⟨rule.name, 0, .skipped⟩
  else
    if !dryRun then
      let _ ← onSession (Mail.query inbox (MailSession.selectFolder inbox false))
    let actions ← actAll inbox dryRun matched rule.actions
    pure ⟨rule.name, matched.size, .acted actions⟩

/-- Applies rules in order, up to the first that fails. -/
def applyAll (inbox : String) (dryRun : Bool) : List Rule → Mail (Run σ) (List RuleReport)
  | [] => pure []
  | rule :: rest => do
    let report ← apply inbox dryRun rule
    let reports ← applyAll inbox dryRun rest
    pure (report :: reports)

/-- Applies rules to an inbox, knowing the given folders or none. Also tells the seconds that
were spent pausing. -/
def run (inbox : String) (known : Option (SortedSet String)) (rules : List Rule) (dryRun : Bool)
    (session : σ) : Except Failure (List RuleReport) × Nat × σ :=
  let (result, after) := (applyAll inbox dryRun rules : Mail (Run σ) _) ⟨session, known, 0⟩
  (result, after.elapsed, after.session)

end Mailroom.Rules
