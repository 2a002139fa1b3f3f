import Mailroom.Account
import Mailroom.Proofs.Rules.Creating

/-! The folders that an account remembers.

A connector is `Surveyed` if it is known which folders there are: its sessions list them, and no call
changes them that does not manage folders. Whatever is done with an account on such a connector, and
whether it succeeds or fails, the account remembers the folders that there are or none (`perform_current`):
it forgets them before it manages folders itself, and after rules that created some, or that failed and may
have. So what it answers are the folders that there are (`getFolders_current`). -/
namespace Mailroom

/-- The folders that are there are the same for both sessions. -/
def SameFolders {κ σ : Type} [Connector κ σ] (there : κ → List Mailbox.Listing) (s t : σ) : Prop :=
  there (Connector.release t) = there (Connector.release s)

instance {κ σ : Type} [Connector κ σ] (there : κ → List Mailbox.Listing) :
    IsPreorder σ (SameFolders there) where
  refl _ := rfl
  trans _ _ _ h h' := Eq.trans h' h

/-- What the connector and its sessions can list is known. -/
structure Surveyed {κ σ : Type} [Connector κ σ] (there : κ → List Mailbox.Listing) : Prop where
  connected : ∀ (c c' : κ) s, Connector.connect c = (.ok s, c') → there (Connector.release s) = there c
  refused : ∀ (c c' : κ) e, Connector.connect c = (.error e, c') → there c' = there c
  listed : ∀ (s t : σ) listed, MailSession.listFolders s = (.ok listed, t) →
    listed = there (Connector.release s)
  keeps : KeepsWithin σ (SameFolders there)

namespace Account

/-- Something that can be done with an account. The rules are read from the files as they are then. -/
inductive Call
  | capabilities
  | hasCapability (name : String)
  | moveSupported
  | folders
  | resolveFolders (selector : String)
  | createFolder (name : String)
  | renameFolder (old new : String)
  | deleteFolder (name : String)
  | search (folder : String) (spec : SearchSpec) (mode : MergeMode)
  | summaries (folder : String) (spec : SearchSpec) (mode : MergeMode)
  | uniqueSenders (folder : String) (spec : SearchSpec) (mode : MergeMode)
  | moveMessages (folder : String) (uids : UidSet) (destination : String)
  | deleteMessages (folder : String) (uids : UidSet)
  | processRules (files : Files) (dryRun : Bool)

/-- The account after the call, whatever came of it. -/
def after {κ σ : Type} [Connector κ σ] (a : Account κ) : Call → Account κ
  | .capabilities => (getCapabilities a).2
  | .hasCapability name => (hasCapability name a).2
  | .moveSupported => (moveSupported a).2
  | .folders => (getFolders a).2
  | .resolveFolders selector => (resolveFolders selector a).2
  | .createFolder name => (createFolder name a).2
  | .renameFolder old new => (renameFolder old new a).2
  | .deleteFolder name => (deleteFolder name a).2
  | .search folder spec mode => (search folder spec mode a).2
  | .summaries folder spec mode => (summaries folder spec mode a).2
  | .uniqueSenders folder spec mode => (uniqueSenders folder spec mode a).2
  | .moveMessages folder uids destination => (moveMessages folder uids destination a).2
  | .deleteMessages folder uids => (deleteMessages folder uids a).2
  | .processRules files dryRun => (processRules files dryRun a).2

/-! ### What is remembered -/

/-- The account remembers the folders that there are, or none. -/
def Current (there : κ → List Mailbox.Listing) (a : Account κ) : Prop :=
  ∀ listed, a.folders = some listed → listed = there a.connector

/-- If the first account remembers no other folders than there are, neither does the second. -/
def StaysCurrent (there : κ → List Mailbox.Listing) (a b : Account κ) : Prop :=
  Current there a → Current there b

section
variable {κ : Type} {there : κ → List Mailbox.Listing} {a b : Account κ} {α : Type}

instance : IsPreorder (Account κ) (StaysCurrent there) where
  refl _ := id
  trans _ _ _ h h' := h' ∘ h

theorem current_of_none (h : a.folders = none) : Current there a := by
  intro listed hlisted
  rw [h] at hlisted
  cases hlisted

theorem Current.of_same (h : Current there a) (hfolders : b.folders = a.folders)
    (hthere : there b.connector = there a.connector) : Current there b := by
  intro listed hlisted
  rw [hthere]
  exact h listed (hfolders ▸ hlisted)

theorem settle_current (result : Except Failure α) :
    Within (StaysCurrent there) (settle result : Mail (Account κ) α) := fun _ => id

theorem pause_current (seconds : Nat) : Within (StaysCurrent there) (pause seconds : Mail (Account κ) Unit) :=
  fun _ ha => ha

end

variable {κ σ α : Type} [Connector κ σ] {there : κ → List Mailbox.Listing} {a b : Account κ}

/-- Folders are forgotten before any are managed. -/
theorem manage_current (op : Mail σ α) :
    Within (StaysCurrent there) (do forgetFolders; onSession op : Mail (Account κ) α) :=
  fun _ _ => current_of_none rfl

/-- A session is refused, or the operation runs on it before the logout. -/
theorem withSession_cases (account : String) (op : Mail σ α) (c : κ) :
    (∃ e c', Connector.connect c = (.error e, c') ∧
      Connector.withSession account op c = (.error (Connector.explain account e), c')) ∨
    ∃ s c', Connector.connect c = (.ok s, c') ∧ Connector.withSession account op c =
      ((op s).1, Connector.release ((MailSession.logout : SessionM σ Unit) (op s).2).2) := by
  unfold Connector.withSession
  rcases Connector.connect c with ⟨e | s, c'⟩
  · exact .inl ⟨e, c', rfl, rfl⟩
  · exact .inr ⟨s, c', rfl, rfl⟩

variable (h : Surveyed there)
include h

/-- The folders are the same after a session as after the operation on it. -/
theorem withSession_same (account : String) (op : Mail σ α) (c : κ)
    (hop : ∀ s c', Connector.connect c = (.ok s, c') → SameFolders there s (op s).2) :
    there (Connector.withSession account op c).2 = there c := by
  rcases withSession_cases account op c with ⟨e, c', hconnect, hrun⟩ | ⟨s, c', hconnect, hrun⟩
  · rw [hrun]
    exact h.refused c c' e hconnect
  · rw [hrun, ← h.connected c c' s hconnect]
    exact (h.keeps .logout rfl (op s).2).trans (hop s c' hconnect)

/-- What keeps the folders as they are does not make what is remembered wrong. -/
theorem onSession_current {op : Mail σ α} (hop : Within (SameFolders there) op) :
    Within (StaysCurrent there) (onSession op : Mail (Account κ) α) :=
  fun a ha => ha.of_same rfl (withSession_same h a.name op a.connector fun s _ _ => hop s)

theorem getCapabilities_current :
    Within (StaysCurrent there) (getCapabilities : Mail (Account κ) (List Capability)) := by
  refine .bind .get fun a => ?_
  rcases a.capabilities with _ | capabilities
  · refine (onSession_current h (.bind .get fun s => .pure _)).bind fun capabilities => ?_
    refine .bind ?_ fun _ => .pure _
    exact fun _ ha => ha
  · exact .pure capabilities

/-- What a session of its own lists are the folders that there are. -/
theorem listed_there {account folder : String} {c c' : κ} {listed : List Mailbox.Listing}
    (hrun : Connector.withSession account (Mail.query folder MailSession.listFolders) c = (.ok listed, c')) :
    listed = there c := by
  rcases withSession_cases account (Mail.query folder MailSession.listFolders) c with
    ⟨e, c', -, hcase⟩ | ⟨s, c', hconnect, hcase⟩
  · rw [hcase] at hrun
    cases hrun
  · rw [hcase] at hrun
    have hlisted : (Mail.query folder MailSession.listFolders s).1 = .ok listed := congrArg Prod.fst hrun
    rcases hlist : (MailSession.listFolders : SessionM σ _) s with ⟨e | listed', t⟩
    · rw [Mail.query, Mail.lift_error hlist] at hlisted
      cases hlisted
    · rw [Mail.query, Mail.lift_ok hlist] at hlisted
      cases hlisted
      exact (h.listed s t listed hlist).trans (h.connected c c' s hconnect)

theorem list_ends (a : Account κ) : Ends (onSession (Mail.query allFolders MailSession.listFolders)) a
    (fun listed b => listed = there a.connector ∧ there b.connector = there a.connector)
    fun _ b => b.folders = a.folders ∧ there b.connector = there a.connector := by
  have hsame := withSession_same h a.name (Mail.query allFolders MailSession.listFolders) a.connector
    fun s _ _ => h.keeps.listFolders.lift s
  rcases hrun : Connector.withSession a.name (Mail.query allFolders MailSession.listFolders) a.connector with
    ⟨e | listed, c'⟩ <;> rw [hrun] at hsame
  · refine .error (e := e) (t := { a with connector := c' }) ?_ ⟨rfl, hsame⟩
    rw [onSession, onConnector, hrun]
  · refine .ok (a := listed) (t := { a with connector := c' }) ?_ ⟨listed_there h hrun, hsame⟩
    rw [onSession, onConnector, hrun]

/-- What is answered are the folders that there are. -/
theorem getFolders_ends (ha : Current there a) : Ends (getFolders : Mail (Account κ) _) a
    (fun listed b => listed = there a.connector ∧ Current there b ∧ there b.connector = there a.connector)
    fun _ b => Current there b ∧ there b.connector = there a.connector := by
  refine .of_eq (bind_ok (get_run a)) ?_
  rcases hfolders : a.folders with _ | folders
  · refine .bind (list_ends h a) (fun e b hb => ⟨current_of_none (hb.1.trans hfolders), hb.2⟩) ?_
    rintro listed b ⟨hlisted, hsame⟩
    refine .ok rfl ⟨hlisted, ?_, hsame⟩
    intro remembered hremembered
    exact ((Option.some.inj hremembered).symm.trans hlisted).trans hsame.symm
  · exact .ok rfl ⟨ha folders hfolders, ha, rfl⟩

theorem getFolders_current : Within (StaysCurrent there) (getFolders : Mail (Account κ) _) := by
  intro a ha
  rcases (getFolders_ends h ha).cases with ⟨listed, b, hrun, -, hb, -⟩ | ⟨e, b, hrun, hb, -⟩
  · rwa [hrun]
  · rwa [hrun]

/-- Every folder is the answer if all are selected that can be opened. -/
theorem resolveFolders_current (selector : String) :
    Within (StaysCurrent there) (resolveFolders selector : Mail (Account κ) (List String)) :=
  .ite ((getFolders_current h).bind fun _ => .pure _) (.pure _)

theorem search_current (folder : String) (spec : SearchSpec) (mode : MergeMode) :
    Within (StaysCurrent there) (search folder spec mode : Mail (Account κ) UidSet) :=
  onSession_current h (spec.resolve_within h.keeps.searches folder mode)

theorem tellAbout_current (folder : String) (spec : SearchSpec) (mode : MergeMode)
    (attributes : List FetchAttribute) :
    Within (StaysCurrent there) (tellAbout folder spec mode attributes : Mail (Account κ) Fetched) :=
  onSession_current h ((spec.resolve_within h.keeps.searches folder mode).bind fun uids =>
    (h.keeps.searches.fetch uids attributes).lift)

theorem inFolder_within (folder : String) {op : Mail σ Unit} (hop : Within (SameFolders there) op) :
    Within (SameFolders there) (inFolder folder op) :=
  (h.keeps.selectFolder folder false).lift.bind fun _ => hop

/-- Rules that are not said to have changed the folders have not. -/
theorem applyRules_current (ha : Current there a) (inbox : String) (known : SortedSet String)
    (rules : List Rule) (dryRun : Bool)
    (hfresh : isStale dryRun (outcomeOf (onSession (applyRules inbox known rules dryRun) a).1).1 = false) :
    Current there (onSession (applyRules inbox known rules dryRun) a).2 := by
  have hsame := withSession_same h a.name (applyRules inbox known rules dryRun) a.connector
  refine ha.of_same rfl (hsame fun s c' hconnect => ?_)
  refine Rules.run_within h.keeps inbox (some known) rules dryRun s ?_
  rcases withSession_cases a.name (applyRules inbox known rules dryRun) a.connector with
    ⟨e, c, hrefused, -⟩ | ⟨s', c, hconnect', hrun⟩
  · rw [hconnect] at hrefused
    cases hrefused
  · rw [hconnect] at hconnect'
    cases hconnect'
    have hresult : (onSession (applyRules inbox known rules dryRun) a).1 =
        .ok ((Rules.run inbox (some known) rules dryRun s).1,
          (Rules.run inbox (some known) rules dryRun s).2.1) := congrArg Prod.fst hrun
    rw [hresult] at hfresh
    change isStale dryRun (Rules.run inbox (some known) rules dryRun s).1 = false at hfresh
    rcases hreports : (Rules.run inbox (some known) rules dryRun s).1 with e | reports
    · rw [hreports] at hfresh
      exact .inl (by simpa [isStale] using hfresh)
    · rw [hreports] at hfresh
      exact .inr ⟨reports, rfl, hfresh⟩

theorem processRules_current (files : Files) (dryRun : Bool) :
    Within (StaysCurrent there) (processRules files dryRun : Mail (Account κ) (List RuleReport)) := by
  refine .bind .get fun a => (settle_current _).bind fun rules => .ite (.pure []) ?_
  refine (getFolders_current h).bind fun folders => .bind .get fun b => ?_
  intro a ha
  have hfresh := applyRules_current h ha b.inbox (SortedSet.ofList (folders.map Mailbox.Listing.name))
    rules dryRun
  have hobserve : ∀ op : Mail (Account κ) (Except Failure (List RuleReport) × Nat),
      observe op a = (.ok (op a).1, (op a).2) := fun _ => rfl
  rw [bind_ok (hobserve _)]
  generalize onSession (applyRules b.inbox _ rules dryRun) a = attempt at *
  rcases houtcome : outcomeOf attempt.1 with ⟨outcome, elapsed⟩
  rw [houtcome] at hfresh
  rcases hstale : isStale dryRun outcome with _ | _
  · simp only [hstale, Bool.false_eq_true, if_false]
    exact (pause_current elapsed).bind (fun _ => settle_current outcome) attempt.2 (hfresh hstale)
  · simp only [hstale, if_true]
    exact current_of_none rfl

/-- Whatever is done with an account, it remembers the folders that there are, or none. -/
theorem after_current (ha : Current there a) (call : Call) : Current there (a.after call) := by
  cases call with
  | capabilities => exact getCapabilities_current h a ha
  | hasCapability name => exact ((getCapabilities_current h).bind fun _ => .pure _) a ha
  | moveSupported => exact ((getCapabilities_current h).bind fun _ => .pure _) a ha
  | folders => exact getFolders_current h a ha
  | resolveFolders selector => exact resolveFolders_current h selector a ha
  | createFolder name => exact manage_current _ a ha
  | renameFolder old new => exact manage_current _ a ha
  | deleteFolder name => exact manage_current _ a ha
  | search folder spec mode => exact search_current h folder spec mode a ha
  | summaries folder spec mode => exact ((tellAbout_current h folder spec mode _).bind fun _ => .pure _) a ha
  | uniqueSenders folder spec mode => exact ((tellAbout_current h folder spec mode _).bind fun _ => .pure _) a ha
  | moveMessages folder uids destination =>
    refine ((onSession_current h (inFolder_within h folder ?_)).bind fun _ => pause_current _) a ha
    exact (h.keeps.moveOrCopy uids destination).lift
  | deleteMessages folder uids =>
    refine ((onSession_current h (inFolder_within h folder ?_)).bind fun _ => pause_current _) a ha
    exact h.keeps.remove uids
  | processRules files dryRun => exact processRules_current h files dryRun a ha

end Account

end Mailroom
