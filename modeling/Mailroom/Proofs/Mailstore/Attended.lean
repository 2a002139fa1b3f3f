import Mailroom.Proofs.Account.Mirrored
import Mailroom.Proofs.Mailstore.Asked
import Mailroom.Proofs.Mailstore.Granted

/-! Stores that keep the requests of each session apart.

An `Attended` store is a store, and notes of every session that is over what was requested in it. Nothing
reads what it notes, so it does what the store does (`attended_mirrors`). What is noted of a session ends
with its only logout, and the store has as many sessions opened as there are noted, and as many closed unless
it was told to fail a logout (`Attended.Accounted`). -/
namespace Mailroom.Mailstore

/-- A store, and the requests of each session on it that is over. -/
structure Attended where
  server : Server
  visits : List (List String) := []

/-- A session on a store, the requests of those before, and how many commands were on record when it was
opened. -/
structure AttendedSession where
  session : Session
  visits : List (List String)
  since : Nat

namespace AttendedSession
variable {α : Type}

/-- Does something on the session. -/
def attend (op : Session.Op α) : SessionM AttendedSession α := fun s =>
  ((op s.session).1, { s with session := (op s.session).2 })

instance : MailSession AttendedSession where
  capabilities s := s.session.handle.capabilities
  listFolders := attend Session.listFolders
  selectFolder folder readOnly := attend (Session.selectFolder folder readOnly)
  search keys := attend (Session.search keys)
  fetch uids attributes := attend (Session.fetch uids attributes)
  moveMessages uids destination := attend (Session.moveMessages uids destination)
  copyMessages uids destination := attend (Session.copyMessages uids destination)
  deleteMessages uids := attend (Session.deleteMessages uids)
  expunge uids := attend (Session.expunge uids)
  createFolder folder := attend (Session.createFolder folder)
  renameFolder old new := attend (Session.renameFolder old new)
  deleteFolder folder := attend (Session.deleteFolder folder)
  logout := attend Session.logout

/-- What has been requested in the session. -/
def requests (s : AttendedSession) : List String := s.session.server.commands.drop s.since

end AttendedSession

namespace Attended

/-- Opens a session. -/
def connect (store : Attended) : Except SessionError AttendedSession × Attended :=
  let (result, server) := store.server.connect
  (result.map fun session => ⟨session, store.visits, store.server.commands.length⟩, ⟨server, store.visits⟩)

instance : Connector Attended AttendedSession where
  connect := connect
  release s := ⟨s.session.server, s.visits ++ [s.requests]⟩

/-- From the start every session that was opened is noted, with its only logout at the end, and nothing else
has been requested. Those that could log out have been closed. -/
structure Accounted (start : Server) (store : Attended) : Prop where
  recorded : store.server.commands = start.commands ++ store.visits.flatten
  concluded : ∀ requests ∈ store.visits, ∃ before, requests = before ++ ["LOGOUT"] ∧ "LOGOUT" ∉ before
  opened : store.server.opened = start.opened + store.visits.length
  closed : store.server.closed = start.closed + if start.failing = some "LOGOUT" then 0 else store.visits.length
  failing : store.server.failing = start.failing

theorem Accounted.refl (start : Server) : Accounted start ⟨start, []⟩ where
  recorded := (List.append_nil _).symm
  concluded := nofun
  opened := rfl
  closed := by simp
  failing := rfl

end Attended

/-! ### What a session does before its logout -/

namespace Session

/-- Between the two sessions nobody has logged in or out. -/
structure Proceeds (s t : Session) : Prop where
  requests : ∃ requests, t.server.commands = s.server.commands ++ requests ∧ "LOGOUT" ∉ requests
  opened : t.server.opened = s.server.opened
  closed : t.server.closed = s.server.closed
  failing : t.server.failing = s.server.failing

theorem Proceeds.refl (s : Session) : Proceeds s s := ⟨⟨[], (List.append_nil _).symm, nofun⟩, rfl, rfl, rfl⟩

theorem Proceeds.trans {s t u : Session} (h : Proceeds s t) (h' : Proceeds t u) : Proceeds s u := by
  obtain ⟨first, hfirst, hfirsts⟩ := h.requests
  obtain ⟨second, hsecond, hseconds⟩ := h'.requests
  refine ⟨⟨first ++ second, by rw [hsecond, hfirst, List.append_assoc], ?_⟩, h'.opened.trans h.opened,
    h'.closed.trans h.closed, h'.failing.trans h.failing⟩
  rw [List.mem_append, not_or]
  exact ⟨hfirsts, hseconds⟩

/-- A command with another name than that of a logout is not on record as one. -/
theorem logout_not_recorded {names : List String} (h : "LOGOUT" ∉ names) {commands : List Command}
    (hcommands : ∀ c ∈ commands, c.name ∈ names) : "LOGOUT" ∉ commands.map Server.recorded := by
  intro hmem
  obtain ⟨c, hc, hlogout⟩ := List.mem_map.mp hmem
  have hprefix : "LOGOUT".toList <+: (Server.recorded c).toList := hlogout ▸ List.prefix_refl _
  have hname := (Server.isPrefix_recorded_iff c (by decide)).mp hprefix
  exact h (hname ▸ hcommands c hc)

theorem Granted.counts {call : SessionCall} {s t : Session} (h : s.Granted call t)
    (hlogout : "LOGOUT" ∉ call.commandNames) :
    t.server.opened = s.server.opened ∧ t.server.closed = s.server.closed ∧ t.server.failing = s.server.failing := by
  cases h
  case ended => exact absurd List.mem_cons_self hlogout
  all_goals exact ⟨rfl, rfl, rfl⟩

/-- Whatever comes of a call other than the logout, nobody logs in or out. -/
theorem perform_proceeds (call : SessionCall) (h : "LOGOUT" ∉ call.commandNames) :
    Within Proceeds (call.perform : SessionM Session Unit) := by
  intro s
  obtain ⟨commands, hcommands, hnames⟩ := perform_asks call s
  have hrequests := logout_not_recorded h hnames
  rcases perform_ends s call with ⟨t, hgranted⟩ | ⟨e, t, hrun, ht⟩
  · rw [perform_granted hgranted] at hcommands ⊢
    obtain ⟨hopened, hclosed, hfailing⟩ := hgranted.counts h
    exact ⟨⟨_, hcommands, hrequests⟩, hopened, hclosed, hfailing⟩
  · rw [hrun] at hcommands ⊢
    refine ⟨⟨_, hcommands, hrequests⟩, ?_, ?_, ?_⟩ <;> rcases ht with rfl | ⟨command, rfl⟩ <;> rfl

theorem recorded_logout : Server.recorded .logout = "LOGOUT" := by decide

/-- What a logout does to the counts and the record of the store. -/
structure LoggedOut (s t : Session) : Prop where
  recorded : t.server.commands = s.server.commands ++ ["LOGOUT"]
  opened : t.server.opened = s.server.opened
  closed : t.server.closed = s.server.closed + if s.server.failing = some "LOGOUT" then 0 else 1
  failing : t.server.failing = s.server.failing

theorem logout_counts (s : Session) : LoggedOut s (logout s).2 := by
  have hrecorded : (s.asked .logout).server.commands = s.server.commands ++ ["LOGOUT"] := by
    rw [← recorded_logout]
    exact List.reverse_cons
  rw [logout_run]
  by_cases hfails : s.server.failing = some "LOGOUT"
  · rw [if_pos hfails]
    exact ⟨hrecorded, rfl, by rw [if_pos hfails]; rfl, rfl⟩
  · rw [if_neg hfails]
    exact ⟨hrecorded, rfl, by rw [if_neg hfails], rfl⟩

end Session

/-! ### Attended stores and plain ones -/

section
variable {start : Server}

/-- The session is the same on both stores. On the one that is attended, it goes on since it was opened, and
the sessions before are accounted for. -/
structure Attends (start : Server) (s : AttendedSession) (t : Session) : Prop where
  session : s.session = t
  before : ∃ store : Attended, store.Accounted start ∧ s.visits = store.visits ∧
    s.since = store.server.commands.length ∧ ∃ opened : Session,
      opened.server = { store.server with opened := store.server.opened + 1 } ∧ opened.Proceeds t

theorem attend_alike {α : Type} {op : Session.Op α} (h : Within Session.Proceeds op) :
    Alike (Attends start) (AttendedSession.attend op) op := by
  intro s t hst
  obtain ⟨rfl, store, hstore, hvisits, hsince, opened, hopened, hproceeds⟩ := hst
  exact ⟨rfl, rfl, store, hstore, hvisits, hsince, opened, hopened, hproceeds.trans (h s.session)⟩

theorem attended_sessions : Mirrors AttendedSession Session (Attends start) where
  capabilities s t h := by rw [← h.session]; rfl
  listFolders := attend_alike (within_of_outcome (Session.perform_proceeds .listFolders (by decide)))
  selectFolder folder readOnly := attend_alike <| within_of_outcome <|
    Session.perform_proceeds (.selectFolder folder readOnly) (of_decide_eq_true rfl)
  search keys := attend_alike (within_of_outcome (Session.perform_proceeds (.search keys) (of_decide_eq_true rfl)))
  fetch uids attributes :=
    attend_alike (within_of_outcome (Session.perform_proceeds (.fetch uids attributes) (of_decide_eq_true rfl)))
  moveMessages uids destination :=
    attend_alike (Session.perform_proceeds (.moveMessages uids destination) (of_decide_eq_true rfl))
  copyMessages uids destination :=
    attend_alike (Session.perform_proceeds (.copyMessages uids destination) (of_decide_eq_true rfl))
  deleteMessages uids := attend_alike (Session.perform_proceeds (.deleteMessages uids) (of_decide_eq_true rfl))
  expunge uids := attend_alike (Session.perform_proceeds (.expunge uids) (of_decide_eq_true rfl))
  createFolder folder := attend_alike (Session.perform_proceeds (.createFolder folder) (of_decide_eq_true rfl))
  renameFolder old new := attend_alike (Session.perform_proceeds (.renameFolder old new) (of_decide_eq_true rfl))
  deleteFolder folder := attend_alike (Session.perform_proceeds (.deleteFolder folder) (of_decide_eq_true rfl))

/-- With its logout a session is accounted for. -/
theorem Attends.accounted {s : AttendedSession} {t : Session} (h : Attends start s t) :
    (Attended.mk (Session.logout t).2.server
      (s.visits ++ [(Session.logout t).2.server.commands.drop s.since])).Accounted start := by
  obtain ⟨-, store, hstore, hvisits, hsince, opened, hopened, hproceeds⟩ := h
  obtain ⟨requests, hrequests, hnone⟩ := hproceeds.requests
  have hout := Session.logout_counts t
  have hcommands : (Session.logout t).2.server.commands = store.server.commands ++ (requests ++ ["LOGOUT"]) := by
    rw [hout.recorded, hrequests, hopened, List.append_assoc]
    rfl
  have hvisit : (Session.logout t).2.server.commands.drop s.since = requests ++ ["LOGOUT"] := by
    rw [hcommands, hsince, List.drop_left]
  have hfailing : t.server.failing = start.failing := by
    rw [hproceeds.failing, hopened]
    exact hstore.failing
  rw [hvisit, hvisits]
  refine ⟨?_, ?_, ?_, ?_, hout.failing.trans hfailing⟩
  · rw [hcommands, hstore.recorded, List.append_assoc, List.flatten_append, List.flatten_singleton]
  · refine List.forall_mem_append.mpr ⟨hstore.concluded, ?_⟩
    intro visit hvisit
    exact ⟨requests, List.mem_singleton.mp hvisit, hnone⟩
  · rw [hout.opened, hproceeds.opened, hopened, List.length_append, ← Nat.add_assoc, ← hstore.opened]
    rfl
  · rw [hout.closed, hproceeds.closed, hopened, hfailing, List.length_append]
    show store.server.closed + _ = _
    rw [hstore.closed]
    split <;> rfl

/-- An attended store does what the store does. -/
theorem attended_mirrors :
    ConnectorsMirror (fun (store : Attended) server => store.server = server ∧ store.Accounted start)
      (Attends start) where
  sessions := attended_sessions
  connected := by
    intro store server hstore
    obtain ⟨rfl, haccounted⟩ := hstore
    have hconnect : (Connector.connect store : Except SessionError AttendedSession × Attended) =
      store.connect := rfl
    have hplain : (Connector.connect store.server : Except SessionError Session × Server) =
      store.server.connect := rfl
    rw [hconnect, Attended.connect, hplain, Server.connect]
    by_cases hrefuses : store.server.refusesLogin = true
    · rw [if_pos hrefuses]
      exact .inl ⟨_, _, _, rfl, rfl, rfl, haccounted⟩
    · rw [if_neg hrefuses]
      exact .inr ⟨_, _, _, _, rfl, rfl, rfl, store, haccounted, rfl, rfl, _, rfl, .refl _⟩
  released s t h := by
    obtain rfl := h.session
    exact ⟨rfl, h.accounted⟩

end

end Mailroom.Mailstore
