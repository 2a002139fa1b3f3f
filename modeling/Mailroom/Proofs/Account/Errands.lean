import Mailroom.Proofs.Account.Mirrored
import Mailroom.Proofs.Rules.DryRun

/-! What the calls on an account do at its store.

An `Errand` is a result that is there already, or an operation for a session of its own and what is done with
what it gives. `errand` says for every call, from what the account remembers, which operations these are. The
result of a call and the store behind it are those of its errand (`perform_errand`), so what a logout comes to
is nowhere in the result; and a call without a session does not reach for the store (`perform_offline`). -/
namespace Mailroom.Account
open Mailstore

/-- What is to be done at a store for a result. -/
inductive Errand (α : Type) : Type 1
  | done (result : Except Failure α)
  | visit {β : Type} (op : Mail Session β) (next : β → Errand α)

namespace Errand
variable {α β : Type}

/-- Whether it takes a session. -/
def reaches : Errand α → Bool
  | done _ => false
  | visit .. => true

/-- One errand and another that depends on its result. -/
def bind : Errand α → (α → Errand β) → Errand β
  | done (.ok x), next => next x
  | done (.error e), _ => done (.error e)
  | visit op rest, next => visit op fun x => (rest x).bind next

/-- One operation on a session of its own. -/
def once (op : Mail Session α) : Errand α := visit op fun x => done (.ok x)

/-- What is known already, or what an operation on a session gives. -/
def knownOr (known : Option α) (op : Mail Session α) : Errand α :=
  match known with
  | some x => done (.ok x)
  | none => once op

/-- What comes of it, and the store after it. Each session is logged out, whether its operation succeeds or fails. -/
def run (account : String) : Errand α → Server → Except Failure α × Server
  | done result, s => (result, s)
  | visit op next, s =>
    if s.refusesLogin then (.error (.authentication account (.login "invalid credentials")), s)
    else match op (opened s) with
      | (.error e, session) => (.error e, (Session.logout session).2.server)
      | (.ok x, session) => (next x).run account (Session.logout session).2.server

theorem run_bind (e : Errand α) (next : α → Errand β) (account : String) (s : Server) :
    (e.bind next).run account s = match e.run account s with
      | (.ok x, t) => (next x).run account t
      | (.error f, t) => (.error f, t) := by
  induction e generalizing s with
  | done result => rcases result with _ | _ <;> rfl
  | visit op rest ih =>
    rw [bind, run, run]
    split
    · rfl
    · rcases op (opened s) with ⟨_ | x, session⟩
      · rfl
      · exact ih x _

/-- What only makes something of a result takes no session. -/
theorem reaches_bind_done {e : Errand α} {f : α → Except Failure β} :
    (e.bind fun x => done (f x)).reaches = e.reaches := by
  cases e with
  | done result => rcases result with _ | _ <;> rfl
  | visit op rest => rfl

/-- A session for rules gives what the rules come to, whether they fail or the session is refused. -/
theorem run_attempt (op : Mail Session (Except Failure α × Nat)) (account : String) (s : Server) :
    (visit op fun attempt => done attempt.1).run account s =
      ((outcomeOf ((once op).run account s).1).1, ((once op).run account s).2) := by
  rw [once, run, run]
  split
  · rfl
  · rcases op (opened s) with ⟨_ | _, _⟩ <;> rfl

end Errand

/-! ### The errand of each call -/

/-- What the server can do, asked on a session unless it is remembered. -/
def capabilityErrand (a : Account Server) : Errand (List Capability) :=
  .knownOr a.capabilities do pure (MailSession.capabilities (← get))

/-- The folders there are, listed on a session unless they are remembered. -/
def folderErrand (a : Account Server) : Errand (List Mailbox.Listing) :=
  .knownOr a.folders (Mail.query allFolders Session.listFolders)

/-- What a call does at the store. -/
def errand (a : Account Server) : (call : Call) → Errand call.Result
  | .capabilities => a.capabilityErrand
  | .hasCapability name => a.capabilityErrand.bind fun known => .done (.ok (known.any fun c => c.isNamed name))
  | .moveSupported => a.capabilityErrand.bind fun known => .done (.ok (known.contains .move))
  | .folders => a.folderErrand
  | .resolveFolders selector =>
    if selector = allFolders then a.folderErrand.bind fun folders =>
      .done (.ok ((folders.filter Mailbox.Listing.isSelectable).map Mailbox.Listing.name))
    else .done (.ok [selector])
  | .createFolder name => .once (Mail.mutate (.create name) (Session.createFolder name))
  | .renameFolder old new => .once (Mail.mutate (.rename old new) (Session.renameFolder old new))
  | .deleteFolder name => .once (Mail.mutate (.deleteFolder name) (Session.deleteFolder name))
  | .search folder spec mode => .once (spec.resolve folder mode)
  | .summaries folder spec mode => .visit (describe folder spec mode Summary.attributes) fun told =>
      .done (.ok (told.entries.map fun (uid, items) => Summary.ofItems uid items))
  | .uniqueSenders folder spec mode => .visit (describe folder spec mode [.envelope]) fun told =>
      .done (.ok ((countSenders told.values).entries.mergeSort comesFirst))
  | .moveMessages folder uids destination => .once (moveFrom folder uids destination)
  | .deleteMessages folder uids => .once (deleteFrom folder uids)
  | .processRules files dryRun =>
    match Rules.load files a.ruleFiles with
    | .error e => .done (.error e)
    | .ok rules =>
      if rules.isEmpty then .done (.ok [])
      else a.folderErrand.bind fun folders =>
        .visit (applyRules a.inbox (SortedSet.ofList (folders.map Mailbox.Listing.name)) rules dryRun) fun attempt =>
          .done attempt.1

/-! ### Calls follow their errands -/

section
variable {α β : Type}

/-- An operation on an account comes to what an errand comes to, and leaves the store as that does. -/
structure Follows (op : Mail (Account Server) α) (a : Account Server) (e : Errand α) : Prop where
  run : ((op a).1, (op a).2.connector) = e.run a.name a.connector
  name : (op a).2.name = a.name
  inbox : (op a).2.inbox = a.inbox

namespace Follows
variable {op : Mail (Account Server) α} {a b : Account Server} {e : Errand α} {result : Except Failure α}

theorem of_run (h : op a = (result, b)) (hstore : b.connector = a.connector) (hname : b.name = a.name)
    (hinbox : b.inbox = a.inbox) : Follows op a (.done result) where
  run := by rw [h, hstore]; rfl
  name := by rw [h, hname]
  inbox := by rw [h, hinbox]

theorem pure (x : α) : Follows (Pure.pure x) a (.done (.ok x)) := .of_run rfl rfl rfl rfl

theorem ite {other : Mail (Account Server) α} {e' : Errand α} {c : Prop} [Decidable c] (h : Follows op a e)
    (hother : Follows other a e') : Follows (if c then op else other) a (if c then e else e') := by
  split
  · exact h
  · exact hother

theorem bind {next : α → Mail (Account Server) β} {k : α → Errand β} (h : Follows op a e)
    (hnext : ∀ x b, b.inbox = a.inbox → Follows (next x) b (k x)) : Follows (op >>= next) a (e.bind k) := by
  rcases hop : op a with ⟨f | x, b⟩
  · have hrun : (op >>= next) a = (.error f, b) := bind_error hop
    refine ⟨?_, by rw [hrun, ← h.name, hop], by rw [hrun, ← h.inbox, hop]⟩
    rw [hrun, Errand.run_bind, ← h.run, hop]
  · have hrun : (op >>= next) a = next x b := bind_ok hop
    have hname : b.name = a.name := by rw [← h.name, hop]
    have hinbox : b.inbox = a.inbox := by rw [← h.inbox, hop]
    have hx := hnext x b hinbox
    refine ⟨?_, by rw [hrun, hx.name, hname], by rw [hrun, hx.inbox, hinbox]⟩
    rw [hrun, Errand.run_bind, ← h.run, hop, hx.run, hname]

/-- What leaves the account as it is adds nothing. -/
theorem bind_same {look : Mail (Account Server) β} {next : β → Mail (Account Server) α} {x : β}
    (hlook : look a = (.ok x, a)) (h : Follows (next x) a e) : Follows (look >>= next) a e := by
  have hrun : (look >>= next) a = next x a := bind_ok hlook
  exact ⟨hrun ▸ h.run, hrun ▸ h.name, hrun ▸ h.inbox⟩

end Follows

theorem onSession_follows (op : Mail Session α) (a : Account Server) : Follows (onSession op) a (.once op) where
  run := by
    show (Connector.withSession a.name op a.connector) = _
    rw [withSession_run, Errand.once, Errand.run]
    split
    · rfl
    · rcases op (opened a.connector) with ⟨_ | _, _⟩ <;> rfl
  name := rfl
  inbox := rfl

theorem forgetFolders_follows (a : Account Server) : Follows forgetFolders a (.done (.ok ())) :=
  .of_run (b := { a with folders := none }) rfl rfl rfl rfl

theorem pause_follows (seconds : Nat) (a : Account Server) : Follows (pause seconds) a (.done (.ok ())) :=
  .of_run (b := { a with elapsed := a.elapsed + seconds }) rfl rfl rfl rfl

theorem settle_follows (result : Except Failure α) (a : Account Server) : Follows (settle result) a (.done result) :=
  .of_run rfl rfl rfl rfl

theorem getCapabilities_follows (a : Account Server) : Follows getCapabilities a a.capabilityErrand := by
  refine .bind_same (get_run a) ?_
  rw [capabilityErrand]
  rcases a.capabilities with _ | known
  · exact (onSession_follows _ a).bind fun told b _ =>
      .of_run (b := { b with capabilities := some told }) rfl rfl rfl rfl
  · exact .pure known

theorem getFolders_follows (a : Account Server) : Follows getFolders a a.folderErrand := by
  refine .bind_same (get_run a) ?_
  rw [folderErrand]
  rcases a.folders with _ | known
  · exact (onSession_follows _ a).bind fun told b _ =>
      .of_run (b := { b with folders := some told }) rfl rfl rfl rfl
  · exact .pure known

theorem manage_follows (op : Mail Session α) (a : Account Server) :
    Follows (do forgetFolders; onSession op) a (.once op) :=
  (forgetFolders_follows a).bind (k := fun _ => .once op) fun _ b _ => onSession_follows op b

theorem paced_follows (op : Mail Session Unit) (seconds : Nat) (a : Account Server) :
    Follows (do onSession op; pause seconds) a (.once op) :=
  (onSession_follows op a).bind (k := fun _ => .done (.ok ())) fun _ b _ => pause_follows seconds b

/-- What the account makes for itself of the rules that it applied does not change what they come to. -/
theorem attempt_follows {op : Mail Session (Except Failure α × Nat)} {a : Account Server}
    {next : Except Failure (Except Failure α × Nat) → Mail (Account Server) α}
    (hnext : ∀ attempt b, Follows (next attempt) b (.done (outcomeOf attempt).1)) :
    Follows (observe (onSession op) >>= next) a (.visit op fun attempt => .done attempt.1) := by
  have hsession := onSession_follows op a
  have hobserve : (observe (onSession op) : Mail (Account Server) _) a =
      (.ok (onSession op a).1, (onSession op a).2) := rfl
  have hrun : (observe (onSession op) >>= next) a = next (onSession op a).1 (onSession op a).2 := bind_ok hobserve
  have hlast := hnext (onSession op a).1 (onSession op a).2
  refine ⟨?_, by rw [hrun, hlast.name, hsession.name], by rw [hrun, hlast.inbox, hsession.inbox]⟩
  rw [hrun, hlast.run, Errand.run_attempt, ← hsession.run]
  rfl

theorem processRules_follows (files : Files) (dryRun : Bool) (a : Account Server) :
    Follows (processRules files dryRun) a (a.errand (.processRules files dryRun)) := by
  refine .bind_same (get_run a) ?_
  rw [errand]
  rcases Rules.load files a.ruleFiles with e | rules
  · exact .of_run (bind_error rfl) rfl rfl rfl
  · refine .bind_same rfl (.ite (.pure []) ((getFolders_follows a).bind fun folders b hinbox => ?_))
    refine .bind_same (get_run b) ?_
    rw [hinbox]
    refine attempt_follows fun attempt c => ?_
    rcases outcomeOf attempt with ⟨outcome, elapsed⟩
    refine (pause_follows elapsed c).bind (k := fun _ => .done outcome) fun _ c _ => ?_
    dsimp only
    split
    · exact (forgetFolders_follows c).bind (k := fun _ => .done outcome) fun _ d _ => settle_follows outcome d
    · exact settle_follows outcome c

theorem perform_follows (call : Call) (a : Account Server) : Follows (perform call) a (a.errand call) := by
  cases call with
  | capabilities => exact getCapabilities_follows a
  | hasCapability name => exact (getCapabilities_follows a).bind fun known b _ => .pure _
  | moveSupported => exact (getCapabilities_follows a).bind fun known b _ => .pure _
  | folders => exact getFolders_follows a
  | resolveFolders selector => exact .ite ((getFolders_follows a).bind fun folders b _ => .pure _) (.pure _)
  | createFolder | renameFolder | deleteFolder => exact manage_follows _ a
  | search => exact onSession_follows _ a
  | summaries | uniqueSenders => exact (onSession_follows _ a).bind fun told b _ => .pure _
  | moveMessages | deleteMessages => exact paced_follows _ _ a
  | processRules files dryRun => exact processRules_follows files dryRun a

/-- The result of a call, and the store after it, are those of its errand. -/
theorem perform_errand (call : Call) (a : Account Server) :
    ((perform call a).1, (perform call a).2.connector) = (a.errand call).run a.name a.connector :=
  (perform_follows call a).run

/-! ### Calls without a session -/

/-- The operation does not reach for the store: it comes to the same on any other, and leaves that as it is. -/
def Offline (op : Mail (Account Server) α) (a : Account Server) : Prop :=
  ∀ server : Server, op (a.withConnector server) = ((op a).1, (op a).2.withConnector server)

theorem offline_of_run {op : Mail (Account Server) α} {a : Account Server} {result : Except Failure α}
    (h : ∀ server : Server, op (a.withConnector server) = (result, a.withConnector server)) : Offline op a := by
  intro server
  have hrun : op a = (result, a) := h a.connector
  rw [h server, hrun]

theorem getCapabilities_known {a : Account Server} {known : List Capability} (h : a.capabilities = some known) :
    getCapabilities a = (.ok known, a) := by
  have hrun : getCapabilities a = _ := bind_ok (get_run a)
  rw [hrun, h]
  rfl

theorem getFolders_known {a : Account Server} {known : List Mailbox.Listing} (h : a.folders = some known) :
    getFolders a = (.ok known, a) := by
  have hrun : getFolders a = _ := bind_ok (get_run a)
  rw [hrun, h]
  rfl

/-- Rules that cannot be loaded and rules that are none are done with before the account asks for the folders. -/
theorem processRules_offline {files : Files} {dryRun : Bool} {a : Account Server}
    (h : (a.errand (.processRules files dryRun)).reaches = false) : Offline (processRules files dryRun) a := by
  rw [errand] at h
  have hstart : ∀ server : Server, processRules files dryRun (a.withConnector server) = _ := fun server =>
    bind_ok (get_run (a.withConnector server))
  rcases hload : Rules.load files a.ruleFiles with e | rules <;> rw [hload] at h
  · have hsettled : ∀ server : Server, settle (Rules.load files a.ruleFiles) (a.withConnector server) =
        (.error e, a.withConnector server) := fun server => congrArg (·, a.withConnector server) hload
    exact offline_of_run fun server => (hstart server).trans (bind_error (hsettled server))
  · have hsettled : ∀ server : Server, settle (Rules.load files a.ruleFiles) (a.withConnector server) =
        (.ok rules, a.withConnector server) := fun server => congrArg (·, a.withConnector server) hload
    by_cases hnone : rules.isEmpty = true
    · have hrun : ∀ server : Server, processRules files dryRun (a.withConnector server) =
          (.ok [], a.withConnector server) := by
        intro server
        refine (hstart server).trans ((bind_ok (hsettled server)).trans ?_)
        rw [if_pos hnone]
        rfl
      exact offline_of_run hrun
    · simp only [if_neg hnone, folderErrand] at h
      generalize a.folders = remembered at h
      rcases remembered with _ | known <;> cases h

theorem perform_offline (call : Call) (a : Account Server) (h : (a.errand call).reaches = false) :
    Offline (perform call) a := by
  have hcapabilities : a.capabilityErrand.reaches = false → ∃ known, a.capabilities = some known := by
    rw [capabilityErrand]
    rcases a.capabilities with _ | known
    · exact nofun
    · exact fun _ => ⟨known, rfl⟩
  have hfolders : a.folderErrand.reaches = false → ∃ known, a.folders = some known := by
    rw [folderErrand]
    rcases a.folders with _ | known
    · exact nofun
    · exact fun _ => ⟨known, rfl⟩
  cases call with
  | capabilities =>
    obtain ⟨known, hknown⟩ := hcapabilities h
    exact offline_of_run fun server => getCapabilities_known (a := a.withConnector server) hknown
  | hasCapability name =>
    obtain ⟨known, hknown⟩ := hcapabilities (Errand.reaches_bind_done ▸ h)
    exact offline_of_run fun server => bind_ok (getCapabilities_known (a := a.withConnector server) hknown)
  | moveSupported =>
    obtain ⟨known, hknown⟩ := hcapabilities (Errand.reaches_bind_done ▸ h)
    exact offline_of_run fun server => bind_ok (getCapabilities_known (a := a.withConnector server) hknown)
  | folders =>
    obtain ⟨known, hknown⟩ := hfolders h
    exact offline_of_run fun server => getFolders_known (a := a.withConnector server) hknown
  | resolveFolders selector =>
    rw [errand] at h
    show Offline (resolveFolders selector) a
    unfold resolveFolders
    split at h
    · next hall =>
      obtain ⟨known, hknown⟩ := hfolders (Errand.reaches_bind_done ▸ h)
      rw [if_pos hall]
      exact offline_of_run fun server => bind_ok (getFolders_known (a := a.withConnector server) hknown)
    · next hother =>
      rw [if_neg hother]
      exact fun _ => rfl
  | processRules files dryRun => exact processRules_offline h
  | createFolder | renameFolder | deleteFolder | search | summaries | uniqueSenders | moveMessages
  | deleteMessages => cases h

end

end Mailroom.Account
