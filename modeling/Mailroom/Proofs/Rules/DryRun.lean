import Mailroom.Account
import Mailroom.Proofs.Mailstore.Requests
import Mailroom.Proofs.Session.Footprint

/-! Dry runs touch nothing.

On any session, a dry run of rules does nothing but search and list the folders, and never pauses
(`applyAll_dry_within`). On a mail store these are inquiries, which leave every folder as it is
(`Server.Untouched`), whichever command the store was told to fail; so they are the only commands of
a dry run, also where an account does it (`dry_run_touches_nothing`). -/
namespace Mailroom

/-! ### Dry runs on any session -/

namespace Rules
variable {σ α : Type} {R : σ → σ → Prop}

/-- Between the two there was no pause, and the sessions are related by `R`. -/
structure Unpaused (R : σ → σ → Prop) (run run' : Run σ) : Prop where
  session : R run.session run'.session
  elapsed : run'.elapsed = run.elapsed

theorem onSession_within {op : Mail σ α} (h : Within R op) : Within (Unpaused R) (onSession op) :=
  fun run => ⟨h run.session, rfl⟩

variable [IsPreorder σ R]

instance unpaused_isPreorder : IsPreorder (Run σ) (Unpaused R) where
  refl run := ⟨Std.Refl.refl run.session, rfl⟩
  trans _ _ _ h h' := ⟨IsTrans.trans _ _ _ h.session h'.session, h'.elapsed.trans h.elapsed⟩

variable [MailSession σ] (hsearches : SearchesWithin σ R)
  (hlist : Within R (MailSession.listFolders : SessionM σ (List Mailbox.Listing))) (inbox : String)

include hlist in
theorem knownFolders_within : Within (Unpaused R) (knownFolders inbox : Mail (Run σ) _) := by
  refine .bind .get fun run => ?_
  rcases run.folders with _ | known
  · refine (onSession_within hlist.lift).bind fun listed => .bind ?_ fun _ => .pure _
    exact fun run => ⟨Std.Refl.refl run.session, rfl⟩
  · exact .pure known

include hlist in
theorem act_dry_within (uids : UidSet) (action : Action) :
    Within (Unpaused R) (act inbox true uids action : Mail (Run σ) Bool) := by
  cases action with
  | move folder => exact (knownFolders_within hlist inbox).bind fun known => .pure _
  | delete => exact .pure false

include hlist in
theorem actAll_dry_within (uids : UidSet) (actions : List Action) :
    Within (Unpaused R) (actAll inbox true uids actions : Mail (Run σ) (List ActionReport)) := by
  induction actions with
  | nil => exact .pure []
  | cons action rest ih => exact (act_dry_within hlist inbox uids action).bind fun _ => ih.bind fun _ => .pure _

include hsearches hlist

theorem apply_dry_within (rule : Rule) :
    Within (Unpaused R) (apply inbox true rule : Mail (Run σ) RuleReport) := by
  refine (onSession_within (rule.spec.resolve_within hsearches inbox rule.merge)).bind fun matched => ?_
  exact .ite (.pure _) ((actAll_dry_within hlist inbox matched rule.actions).bind fun _ => .pure _)

/-- A dry run stays within what searches and listings of folders do to a session, and never pauses. -/
theorem applyAll_dry_within (rules : List Rule) :
    Within (Unpaused R) (applyAll inbox true rules : Mail (Run σ) (List RuleReport)) := by
  induction rules with
  | nil => exact .pure []
  | cons rule rest ih =>
    exact (apply_dry_within hsearches hlist inbox rule).bind fun _ => ih.bind fun _ => .pure _

end Rules

/-! ### Inquiries -/

namespace Mailstore

/-- The names of the commands that change nothing. -/
def inquiries : List String := ["EXAMINE", "UID SEARCH", "UID FETCH", "LIST", "LOGOUT"]

/-- The second store is the first after some inquiries: the folders are the same, and nothing else
has been put on record. -/
structure Server.Untouched (s t : Server) : Prop where
  folders : t.folders = s.folders
  asked : ∃ commands : List Command,
    t.commands = s.commands ++ commands.map Server.recorded ∧ ∀ c ∈ commands, c.name ∈ inquiries

instance untouched_isPreorder : IsPreorder Server Server.Untouched where
  refl s := ⟨rfl, [], (List.append_nil _).symm, nofun⟩
  trans s t v h h' := by
    obtain ⟨first, hfirst, hfirsts⟩ := h.asked
    obtain ⟨second, hsecond, hseconds⟩ := h'.asked
    refine ⟨h'.folders.trans h.folders, first ++ second, ?_, ?_⟩
    · rw [hsecond, hfirst, List.map_append, List.append_assoc]
    · intro c hc
      exact (List.mem_append.mp hc).elim (hfirsts c) (hseconds c)

namespace Session

/-- The store of the second session is that of the first after some inquiries. -/
def Untouched (s t : Session) : Prop := s.server.Untouched t.server

instance : IsPreorder Session Untouched where
  refl s := Std.Refl.refl s.server
  trans _ _ _ h h' := IsTrans.trans (r := Server.Untouched) _ _ _ h h'

theorem asked_untouched (s : Session) {command : Command} (h : command.name ∈ inquiries) :
    Untouched s (s.asked command) where
  folders := rfl
  asked := ⟨[command], List.reverse_cons, by simpa using h⟩

theorem request_untouched (command : Command) (h : command.name ∈ inquiries) :
    Within Untouched (request command) := by
  intro s
  rw [request_run]
  exact asked_untouched s h

theorem selected_untouched : Within Untouched selected := by
  refine .bind .get fun s => ?_
  rcases s.handle.selected with _ | open_
  · exact .throw _
  · exact .pure _

theorem folders_untouched : Within Untouched folders := .bind .get fun _ => .pure _

theorem folderNamed_untouched (name : String) : Within Untouched (folderNamed name) := by
  refine .bind folders_untouched fun all => ?_
  rcases all.find? name with _ | f
  · exact .throw _
  · exact .pure f

/-- Searching is done by inquiries. -/
theorem searches_untouched : SearchesWithin Session Untouched where
  open_ name := by
    refine (request_untouched (.examine name) (by decide : "EXAMINE" ∈ inquiries)).bind fun _ =>
      folders_untouched.bind fun all => ?_
    rcases all.find? name with _ | f
    · exact .throw _
    · exact .bind (fun s => (Std.Refl.refl s.server : s.server.Untouched s.server)) fun _ => .pure _
  search keys := by
    refine selected_untouched.bind fun open_ => ?_
    exact (request_untouched (.search keys) (by decide : "UID SEARCH" ∈ inquiries)).bind fun _ =>
      (folderNamed_untouched open_.1).bind fun _ => .pure _
  fetch uids attributes := by
    refine selected_untouched.bind fun open_ => .ite (.pure _) ?_
    exact (request_untouched (.fetch uids attributes) (by decide : "UID FETCH" ∈ inquiries)).bind fun _ =>
      (folderNamed_untouched open_.1).bind fun _ => .pure _

theorem listFolders_untouched : Within Untouched listFolders :=
  (request_untouched (.list "" "*") (by decide)).bind fun _ => folders_untouched.bind fun _ => .pure _

theorem logout_untouched : Within Untouched logout :=
  (request_untouched .logout (by decide)).bind fun _ =>
    fun s => ⟨rfl, [], (List.append_nil _).symm, nofun⟩

end Session

end Mailstore

namespace Rules
open Mailstore

/-- A dry run sends nothing but inquiries to a store, and spends no time pausing. -/
theorem run_dry_inquires (inbox : String) (known : Option (SortedSet String)) (rules : List Rule)
    (s : Session) :
    s.server.Untouched (Rules.run inbox known rules true s).2.2.server ∧
      (Rules.run inbox known rules true s).2.1 = 0 := by
  have h := applyAll_dry_within Session.searches_untouched Session.listFolders_untouched inbox rules
    ⟨s, known, 0⟩
  exact ⟨h.session, h.elapsed⟩

end Rules

/-! ### Dry runs of an account -/

namespace Account
open Mailstore
variable {α : Type} {op : Mail Session α}

/-- The store of the second account is that of the first after some inquiries, without a pause
between the two. -/
structure Untouched (a b : Account Server) : Prop where
  store : a.connector.Untouched b.connector
  elapsed : b.elapsed = a.elapsed

instance : IsPreorder (Account Server) Untouched where
  refl a := ⟨Std.Refl.refl a.connector, rfl⟩
  trans _ _ _ h h' := ⟨IsTrans.trans (r := Server.Untouched) _ _ _ h.store h'.store,
    h'.elapsed.trans h.elapsed⟩

/-- The session that a store opens. -/
def opened (s : Server) : Session := ⟨{ s with opened := s.opened + 1 }, { capabilities := s.capabilities }⟩

/-- A session of its own is refused, or the operation runs on it before the logout. -/
theorem withSession_run (account : String) (op : Mail Session α) (s : Server) :
    Connector.withSession account op s =
      if s.refusesLogin then (.error (Connector.explain account (.login "invalid credentials")), s)
      else ((op (opened s)).1, (Session.logout (op (opened s)).2).2.server) := by
  have hconnect : (Connector.connect s : Except SessionError Session × Server) = s.connect := rfl
  unfold Connector.withSession
  rw [hconnect, Server.connect]
  by_cases hrefuses : s.refusesLogin = true
  · rw [if_pos hrefuses, if_pos hrefuses]
  · rw [if_neg hrefuses, if_neg hrefuses]
    rfl

theorem withSession_untouched (account : String) (h : Within Session.Untouched op) :
    Within Server.Untouched (Connector.withSession account op : Mail Server α) := by
  intro s
  rw [withSession_run]
  split
  · exact Std.Refl.refl s
  · have hopened : s.Untouched (opened s).server := ⟨rfl, [], (List.append_nil _).symm, nofun⟩
    have hop := IsTrans.trans (r := Server.Untouched) _ _ _ hopened (h (opened s))
    exact IsTrans.trans (r := Server.Untouched) _ _ _ hop (Session.logout_untouched (op (opened s)).2)

theorem onSession_untouched (h : Within Session.Untouched op) :
    Within Untouched (onSession op : Mail (Account Server) α) :=
  fun a => ⟨withSession_untouched a.name h a.connector, rfl⟩

theorem getFolders_untouched : Within Untouched (getFolders : Mail (Account Server) _) := by
  refine .bind .get fun a => ?_
  rcases a.folders with _ | folders
  · refine (onSession_untouched Session.listFolders_untouched.lift).bind fun folders => .bind ?_ fun _ => .pure _
    exact fun a => ⟨Std.Refl.refl a.connector, rfl⟩
  · exact .pure folders

theorem applyRules_untouched (inbox : String) (known : SortedSet String) (rules : List Rule) :
    Within Session.Untouched (applyRules inbox known rules true : Mail Session _) :=
  fun s => (Rules.run_dry_inquires inbox (some known) rules s).1

/-- The rules themselves spend no time, and a session that is refused spends none either. -/
theorem applyRules_elapsed (inbox : String) (known : SortedSet String) (rules : List Rule)
    (a : Account Server) :
    (outcomeOf (onSession (applyRules inbox known rules true : Mail Session _) a).1).2 = 0 := by
  have hrun : (onSession (applyRules inbox known rules true : Mail Session _) a).1 =
      (Connector.withSession a.name (applyRules inbox known rules true : Mail Session _) a.connector).1 := rfl
  rw [hrun, withSession_run]
  split
  · rfl
  · exact (Rules.run_dry_inquires inbox (some known) rules (opened a.connector)).2

theorem forgetFolders_untouched : Within Untouched (forgetFolders : Mail (Account Server) Unit) :=
  fun a => ⟨Std.Refl.refl a.connector, rfl⟩

theorem settle_untouched (result : Except Failure α) :
    Within Untouched (settle result : Mail (Account Server) α) := fun a => Std.Refl.refl a

/-- An account that does a dry run of its rules sends nothing but inquiries to the store, and spends
no time pausing. -/
theorem processRules_untouched (files : Files) :
    Within Untouched (processRules files true : Mail (Account Server) (List RuleReport)) := by
  refine .bind .get fun a => (settle_untouched _).bind fun rules => .ite (.pure []) ?_
  refine getFolders_untouched.bind fun folders => .bind .get fun a => ?_
  refine .bind_of (fun attempt => (outcomeOf attempt).2 = 0) ?_ ?_ ?_
  · exact fun b => onSession_untouched (applyRules_untouched _ _ rules) b
  · rintro b attempt c hattempt
    cases hattempt
    exact applyRules_elapsed _ _ rules b
  · intro attempt helapsed
    rcases houtcome : outcomeOf attempt with ⟨outcome, elapsed⟩
    rw [houtcome] at helapsed
    subst helapsed
    refine .bind ?_ fun _ => ?_
    · exact fun b => ⟨Std.Refl.refl b.connector, rfl⟩
    · exact .ite (forgetFolders_untouched.bind fun _ => settle_untouched _) (settle_untouched _)

end Account

/-- A dry run touches nothing. Whatever command a store was told to fail, a dry run of rules leaves the
folders of the store as they are, sends nothing but inquiries, and spends no time pausing, whether it
knows the folders from the start or not; and so does an account that does a dry run of its rules. -/
theorem dry_run_touches_nothing :
    (∀ (inbox : String) (known : Option (SortedSet String)) (rules : List Rule) (s : Mailstore.Session),
      s.server.Untouched (Rules.run inbox known rules true s).2.2.server ∧
        (Rules.run inbox known rules true s).2.1 = 0) ∧
    ∀ (files : Files) (a : Account Mailstore.Server),
      a.connector.Untouched (a.processRules files true).2.connector ∧
        (a.processRules files true).2.elapsed = a.elapsed :=
  ⟨Rules.run_dry_inquires, fun files a =>
    ⟨(Account.processRules_untouched files a).store, (Account.processRules_untouched files a).elapsed⟩⟩

end Mailroom
