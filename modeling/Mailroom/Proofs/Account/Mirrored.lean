import Mailroom.Proofs.Account.Remembered
import Mailroom.Proofs.Rules.Mirrored

/-! Accounts on two kinds of connectors.

Connectors mirror each other if they open sessions whose calls are alike, or refuse for the same reason, and
are related again when such sessions are over (`ConnectorsMirror`). What comes of logging out need not be the
same. Then whatever is done with an account comes to the same on both (`perform_alike`). -/
namespace Mailroom

/-- Related connectors open related sessions, and are related again after those. -/
structure ConnectorsMirror {κ κ' σ τ : Type} [Connector κ σ] [Connector κ' τ] (R : κ → κ' → Prop)
    (during : σ → τ → Prop) : Prop where
  sessions : Mirrors σ τ during
  connected : ∀ (c : κ) (c' : κ'), R c c' →
    (∃ e d d', Connector.connect c = (.error e, d) ∧ Connector.connect c' = (.error e, d') ∧ R d d') ∨
    ∃ s t d d', Connector.connect c = (.ok s, d) ∧ Connector.connect c' = (.ok t, d') ∧ during s t
  released : ∀ (s : σ) (t : τ), during s t →
    R (Connector.release ((MailSession.logout : SessionM σ Unit) s).2)
      (Connector.release ((MailSession.logout : SessionM τ Unit) t).2)

namespace Account

/-- What a call gives if it succeeds. -/
def Call.Result : Call → Type
  | .capabilities => List Capability
  | .hasCapability _ | .moveSupported => Bool
  | .folders => List Mailbox.Listing
  | .resolveFolders _ => List String
  | .search .. => UidSet
  | .summaries .. => List Summary
  | .uniqueSenders .. => List (String × Nat)
  | .processRules .. => List RuleReport
  | .createFolder _ | .renameFolder .. | .deleteFolder _ | .moveMessages .. | .deleteMessages .. => Unit

/-- Makes the call. -/
def perform {κ σ : Type} [Connector κ σ] : (call : Call) → Mail (Account κ) call.Result
  | .capabilities => getCapabilities
  | .hasCapability name => hasCapability name
  | .moveSupported => moveSupported
  | .folders => getFolders
  | .resolveFolders selector => resolveFolders selector
  | .createFolder name => createFolder name
  | .renameFolder old new => renameFolder old new
  | .deleteFolder name => deleteFolder name
  | .search folder spec mode => search folder spec mode
  | .summaries folder spec mode => summaries folder spec mode
  | .uniqueSenders folder spec mode => uniqueSenders folder spec mode
  | .moveMessages folder uids destination => moveMessages folder uids destination
  | .deleteMessages folder uids => deleteMessages folder uids
  | .processRules files dryRun => processRules files dryRun

theorem perform_after {κ σ : Type} [Connector κ σ] (a : Account κ) (call : Call) :
    (perform call a).2 = a.after call := by
  cases call <;> rfl

/-- The account, on another connector. -/
def withConnector {κ κ' : Type} (a : Account κ) (connector : κ') : Account κ' :=
  ⟨a.name, connector, a.inbox, a.ruleFiles, a.capabilities, a.folders, a.elapsed⟩

/-- The accounts know the same, and their connectors are related. -/
def Beside {κ κ' : Type} (R : κ → κ' → Prop) (a : Account κ) (b : Account κ') : Prop :=
  b = a.withConnector b.connector ∧ R a.connector b.connector

section
variable {κ κ' σ τ α : Type} {R : κ → κ' → Prop} {during : σ → τ → Prop}

theorem settle_alike (result : Except Failure α) :
    Alike (Beside R) (settle result : Mail (Account κ) α) (settle result) := fun _ _ hab => ⟨rfl, hab⟩

theorem modify_alike {f : Account κ → Account κ} {g : Account κ' → Account κ'}
    (h : ∀ a b, Beside R a b → Beside R (f a) (g b)) :
    Alike (Beside R) (modify f : Mail (Account κ) Unit) (modify g) := .modify h

theorem forgetFolders_alike : Alike (Beside R) (forgetFolders : Mail (Account κ) Unit) forgetFolders :=
  modify_alike fun a b hab => ⟨by rw [hab.1]; rfl, hab.2⟩

theorem pause_alike (seconds : Nat) : Alike (Beside R) (pause seconds : Mail (Account κ) Unit) (pause seconds) :=
  modify_alike fun a b hab => ⟨by rw [hab.1]; rfl, hab.2⟩

theorem observe_alike {op : Mail (Account κ) α} {op' : Mail (Account κ') α} (h : Alike (Beside R) op op') :
    Alike (Beside R) (observe op) (observe op') := by
  intro a b hab
  obtain ⟨hresult, hafter⟩ := h a b hab
  exact ⟨congrArg Except.ok hresult, hafter⟩

variable [Connector κ σ] [Connector κ' τ] (h : ConnectorsMirror R during)
include h

theorem withSession_alike {op : Mail σ α} {op' : Mail τ α} (hop : Alike during op op') (account : String) :
    Alike R (Connector.withSession account op) (Connector.withSession account op') := by
  intro c c' hc
  unfold Connector.withSession
  rcases h.connected c c' hc with ⟨e, d, d', hd, hd', hrefused⟩ | ⟨s, t, d, d', hd, hd', hopened⟩
  · rw [hd, hd']
    exact ⟨rfl, hrefused⟩
  · rw [hd, hd']
    obtain ⟨hresult, hafter⟩ := hop s t hopened
    exact ⟨hresult, h.released _ _ hafter⟩

theorem onSession_alike {op : Mail σ α} {op' : Mail τ α} (hop : Alike during op op') :
    Alike (Beside R) (onSession op : Mail (Account κ) α) (onSession op') := by
  intro a b hab
  obtain ⟨hsame, hab⟩ := hab
  obtain ⟨hresult, hafter⟩ := withSession_alike h hop a.name a.connector b.connector hab
  rw [hsame]
  exact ⟨hresult, rfl, hafter⟩

theorem getCapabilities_alike : Alike (Beside R) (getCapabilities : Mail (Account κ) _) getCapabilities := by
  refine .get_bind fun a b hab => ?_
  have hsame : b.capabilities = a.capabilities := congrArg Account.capabilities hab.1
  rw [hsame]
  rcases a.capabilities with _ | capabilities
  · refine (onSession_alike h (.get_bind fun s t hst => ?_)).bind fun capabilities => ?_
    · rw [h.sessions.capabilities s t hst]
      exact .pure _
    · exact .bind (modify_alike fun a b hab => ⟨by rw [hab.1]; rfl, hab.2⟩) fun _ => .pure _
  · exact .pure capabilities

theorem getFolders_alike : Alike (Beside R) (getFolders : Mail (Account κ) _) getFolders := by
  refine .get_bind fun a b hab => ?_
  have hsame : b.folders = a.folders := congrArg Account.folders hab.1
  rw [hsame]
  rcases a.folders with _ | folders
  · refine (onSession_alike h h.sessions.listFolders.lift).bind fun folders => ?_
    exact .bind (modify_alike fun a b hab => ⟨by rw [hab.1]; rfl, hab.2⟩) fun _ => .pure _
  · exact .pure folders

theorem manage_alike {op : SessionM σ Unit} {op' : SessionM τ Unit} (hop : Alike during op op')
    (mutation : Mutation) :
    Alike (Beside R) (do forgetFolders; onSession (Mail.mutate mutation op) : Mail (Account κ) Unit)
      (do forgetFolders; onSession (Mail.mutate mutation op')) :=
  forgetFolders_alike.bind fun _ => onSession_alike h hop.lift

theorem tellAbout_alike (folder : String) (spec : SearchSpec) (mode : MergeMode)
    (attributes : List FetchAttribute) :
    Alike (Beside R) (tellAbout folder spec mode attributes : Mail (Account κ) Fetched)
      (tellAbout folder spec mode attributes) :=
  onSession_alike h ((spec.resolve_alike h.sessions.searches folder mode).bind fun uids =>
    (h.sessions.fetch uids attributes).lift)

theorem inFolder_alike (folder : String) {op : Mail σ Unit} {op' : Mail τ Unit} (hop : Alike during op op') :
    Alike during (inFolder folder op) (inFolder folder op') :=
  (h.sessions.selectFolder folder false).lift.bind fun _ => hop

theorem applyRules_alike (inbox : String) (known : SortedSet String) (rules : List Rule) (dryRun : Bool) :
    Alike during (applyRules inbox known rules dryRun : Mail σ _) (applyRules inbox known rules dryRun) := by
  intro s t hst
  obtain ⟨hresult, helapsed, hafter⟩ := Rules.run_alike h.sessions inbox dryRun (some known) rules hst
  refine ⟨congrArg Except.ok (Prod.ext hresult helapsed), hafter⟩

theorem processRules_alike (files : Files) (dryRun : Bool) :
    Alike (Beside R) (processRules files dryRun : Mail (Account κ) (List RuleReport))
      (processRules files dryRun) := by
  refine .get_bind fun a b hab => ?_
  have hfiles : b.ruleFiles = a.ruleFiles := congrArg Account.ruleFiles hab.1
  rw [hfiles]
  refine (settle_alike _).bind fun rules => .ite (.pure []) ((getFolders_alike h).bind fun folders => ?_)
  refine .get_bind fun a b hab => ?_
  have hinbox : b.inbox = a.inbox := congrArg Account.inbox hab.1
  rw [hinbox]
  refine (observe_alike (onSession_alike h (applyRules_alike h _ _ rules dryRun))).bind fun attempt => ?_
  rcases outcomeOf attempt with ⟨outcome, elapsed⟩
  refine (pause_alike elapsed).bind fun _ => ?_
  exact .ite (forgetFolders_alike.bind fun _ => settle_alike outcome) (settle_alike outcome)

/-- Whatever is done with an account, it comes to the same on connectors that mirror each other. -/
theorem perform_alike (call : Call) : Alike (Beside R) (perform call : Mail (Account κ) _) (perform call) := by
  cases call with
  | capabilities => exact getCapabilities_alike h
  | hasCapability name => exact (getCapabilities_alike h).bind fun _ => .pure _
  | moveSupported => exact (getCapabilities_alike h).bind fun _ => .pure _
  | folders => exact getFolders_alike h
  | resolveFolders selector => exact .ite ((getFolders_alike h).bind fun _ => .pure _) (.pure _)
  | createFolder name => exact manage_alike h (h.sessions.createFolder name) _
  | renameFolder old new => exact manage_alike h (h.sessions.renameFolder old new) _
  | deleteFolder name => exact manage_alike h (h.sessions.deleteFolder name) _
  | search folder spec mode => exact onSession_alike h (spec.resolve_alike h.sessions.searches folder mode)
  | summaries folder spec mode => exact (tellAbout_alike h folder spec mode _).bind fun _ => .pure _
  | uniqueSenders folder spec mode => exact (tellAbout_alike h folder spec mode _).bind fun _ => .pure _
  | moveMessages folder uids destination =>
    refine (onSession_alike h (inFolder_alike h folder ?_)).bind fun _ => pause_alike _
    exact (h.sessions.moveOrCopy_alike uids destination).lift
  | deleteMessages folder uids =>
    refine (onSession_alike h (inFolder_alike h folder ?_)).bind fun _ => pause_alike _
    exact (h.sessions.deleteMessages uids).lift.bind fun _ => (h.sessions.expunge uids).lift
  | processRules files dryRun => exact processRules_alike h files dryRun

end

end Account

end Mailroom
