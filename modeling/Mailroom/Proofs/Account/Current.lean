import Mailroom.Proofs.Account.Remembered
import Mailroom.Proofs.Mailstore.Orders

/-! Accounts on a mail store never answer with folders of the past.

The store may be told between any two calls of the account, or before any command of a call, to fail
another command or to refuse logins. Both kinds of stores are `Surveyed`, so that after any calls an account
remembers the folders that there are or none, and its answers are these (`remembered_folders_current`). -/
namespace Mailroom
open Mailstore

namespace Mailstore

/-- The folders as the store lists them. -/
def Server.listing (s : Server) : List Mailbox.Listing :=
  s.folders.keys.map fun name => ⟨[.hasNoChildren], some '/', name⟩

/-- All of these can be opened. -/
theorem Server.listing_names (s : Server) :
    (s.listing.filter Mailbox.Listing.isSelectable).map Mailbox.Listing.name = s.folders.keys := by
  have hall : ∀ entry ∈ s.listing, entry.isSelectable = true := by
    rintro _ hentry
    obtain ⟨name, -, rfl⟩ := List.mem_map.mp hentry
    rfl
  rw [List.filter_eq_self.mpr hall, Server.listing, List.map_map]
  exact List.map_id _

theorem Server.connect_listing (s : Server) :
    s.connect.2.listing = s.listing ∧
      ∀ session, s.connect.1 = .ok session → session.server.listing = s.listing := by
  unfold Server.connect
  split
  · exact ⟨rfl, nofun⟩
  · refine ⟨rfl, ?_⟩
    rintro session hsession
    cases hsession
    rfl

theorem Session.listing_of_sameNames {s t : Session} (h : s.SameNames t) :
    t.server.listing = s.server.listing := by
  rw [Server.listing, h]
  rfl

theorem Session.listed_listing {s t : Session} {listed : List Mailbox.Listing}
    (h : Session.listFolders s = (.ok listed, t)) : listed = s.server.listing := by
  rw [Session.listFolders_run] at h
  rcases hverdict : s.verdict (.list "" "*") with e | _
  · rw [hverdict] at h
    cases h
  · rw [hverdict] at h
    cases h
    rfl

end Mailstore

namespace Account

theorem surveyed_server : Surveyed Server.listing where
  connected s _ session h := s.connect_listing.2 session (congrArg Prod.fst h)
  refused s _ _ h := (congrArg (Server.listing ·.2) h).symm.trans s.connect_listing.1
  listed _ _ _ h := Session.listed_listing h
  keeps call hcall s := Session.listing_of_sameNames (Session.keeps_names call hcall s)

theorem surveyed_fickle : Surveyed fun store : Fickle => store.server.listing where
  connected store _ session h := by
    have hsession : store.ordered.connect.1.map (fun session => ⟨session, later store.orders⟩) = .ok session :=
      congrArg Prod.fst h
    rcases hconnect : store.ordered.connect.1 with e | opened
    · rw [hconnect] at hsession
      cases hsession
    · rw [hconnect] at hsession
      cases hsession
      exact store.ordered.connect_listing.2 opened hconnect
  refused store store' _ h := by
    have hstore : store.connect.2 = store' := congrArg Prod.snd h
    rw [← hstore]
    exact store.ordered.connect_listing.1
  listed s t listed h := by
    have hlist : (Session.listFolders s.ordered).1 = .ok listed := congrArg Prod.fst h
    exact Session.listed_listing (s := s.ordered) (Prod.ext hlist rfl)
  keeps call hcall s := Session.listing_of_sameNames (FickleSession.keeps_names call hcall s)

/-! ### Answers -/

/-- What asking a store for its folders comes to, under the orders that it has at the login and when they are
listed. -/
def asked {α : Type} (account : String) (login list : Order) (value : α) : Except Failure α :=
  if login.refusesLogin = true then .error (.authentication account (.login "invalid credentials"))
  else if list.failing = some "LIST" then .error (.queryFailed allFolders (.rejected (.failing "LIST")))
  else .ok value

theorem map_asked {α β : Type} {account : String} {login list : Order} {value : α} (f : α → β) :
    (asked account login list value).map f = asked account login list (f value) := by
  unfold asked
  split
  · rfl
  · split <;> rfl

/-- What is remembered and what is answered are the folders of the store. An account that remembers none answers
unless the orders keep it from listing them. -/
structure UpToDate {κ σ : Type} [Connector κ σ] (a : Account κ) (s : Server) (login list : Order) : Prop where
  remembered : a.folders = none ∨ a.folders = some s.listing
  folders : (getFolders a).1 = if a.folders = none then asked a.name login list s.listing else .ok s.listing
  resolved : (resolveFolders allFolders a).1 =
    if a.folders = none then asked a.name login list s.folders.keys else .ok s.folders.keys

section
variable {κ σ : Type} [Connector κ σ] (a : Account κ)

theorem getFolders_result : (getFolders a).1 =
    match a.folders with
    | some folders => .ok folders
    | none => (Connector.withSession a.name (Mail.query allFolders MailSession.listFolders) a.connector).1 := by
  have hrun : getFolders a = _ := bind_ok (get_run a)
  rw [hrun]
  rcases a.folders with _ | folders
  · show (((onSession (Mail.query allFolders MailSession.listFolders) : Mail (Account κ) _) >>= _) a).1 =
      (onSession (Mail.query allFolders MailSession.listFolders) a).1
    rw [bind_run]
    rcases onSession (Mail.query allFolders MailSession.listFolders) a with ⟨_ | _, _⟩ <;> rfl
  · rfl

theorem resolveFolders_result : (resolveFolders allFolders a).1 = (getFolders a).1.map fun folders =>
    (folders.filter Mailbox.Listing.isSelectable).map Mailbox.Listing.name := by
  rw [resolveFolders, if_pos rfl, bind_run]
  rcases getFolders a with ⟨_ | _, _⟩ <;> rfl

variable {a}

theorem Current.upToDate {server : κ → Server} (ha : Current (fun c => (server c).listing) a)
    {login list : Order} (hasked : (Connector.withSession a.name (Mail.query allFolders MailSession.listFolders)
      a.connector).1 = asked a.name login list (server a.connector).listing) :
    a.UpToDate (server a.connector) login list := by
  have hanswer : (getFolders a).1 = if a.folders = none
      then asked a.name login list (server a.connector).listing else .ok (server a.connector).listing := by
    rw [getFolders_result]
    rcases hfolders : a.folders with _ | folders
    · exact hasked
    · exact congrArg Except.ok (ha folders hfolders)
  refine ⟨?_, hanswer, ?_⟩
  · rcases hfolders : a.folders with _ | folders
    · exact .inl rfl
    · exact .inr (congrArg some (ha folders hfolders))
  · rw [resolveFolders_result, hanswer]
    by_cases hnone : a.folders = none
    · rw [if_pos hnone, if_pos hnone, map_asked, Server.listing_names]
    · rw [if_neg hnone, if_neg hnone]
      exact congrArg Except.ok (Server.listing_names _)

end

/-- A session lists the folders unless the store was told to fail that. -/
theorem listFolders_result (s : Session) (folder : String) :
    (Mail.query folder Session.listFolders s).1 =
      if s.server.failing = some "LIST" then .error (.queryFailed folder (.rejected (.failing "LIST")))
      else .ok s.server.listing := by
  show (Session.listFolders s).1.mapError (Failure.queryFailed folder) = _
  rw [Session.listFolders_run]
  by_cases hfails : s.server.failing = some "LIST"
  · rw [Session.verdict_error hfails, if_pos hfails]
    rfl
  · rw [Session.verdict_ok hfails, if_neg hfails]
    rfl

theorem withSession_lists (account : String) (server : Server) (order : Order) :
    (Connector.withSession account (Mail.query allFolders MailSession.listFolders) (server.told order)).1 =
      asked account order order (server.told order).listing := by
  have hsame : (server.told order).refusesLogin = order.refusesLogin := rfl
  rw [withSession_run, asked, hsame]
  by_cases hrefuses : order.refusesLogin = true
  · rw [if_pos hrefuses, if_pos hrefuses]
    rfl
  · rw [if_neg hrefuses, if_neg hrefuses]
    exact listFolders_result (opened (server.told order)) allFolders

/-- A store that is fickle is under one order at the login and under the next when it lists its folders. -/
theorem withSession_lists_fickle (account : String) (store : Fickle) :
    (Connector.withSession account (Mail.query allFolders MailSession.listFolders) store).1 =
      asked account (store.orders 0) (store.orders 1) store.server.listing := by
  have hconnect : Connector.connect store = store.connect := rfl
  have hopened : store.ordered.connect = if (store.orders 0).refusesLogin = true
      then (.error (.login "invalid credentials"), store.ordered)
      else (.ok (opened store.ordered), (opened store.ordered).server) := rfl
  unfold Connector.withSession asked
  rw [hconnect, Fickle.connect, hopened]
  by_cases hrefuses : (store.orders 0).refusesLogin = true
  · rw [if_pos hrefuses, if_pos hrefuses]
    rfl
  · rw [if_neg hrefuses, if_neg hrefuses]
    exact listFolders_result (FickleSession.ordered ⟨opened store.ordered, later store.orders⟩) allFolders

/-! ### Several calls -/

/-- What becomes of an account through several calls. -/
def course {κ σ : Type} [Connector κ σ] (a : Account κ) (calls : List Call) : Account κ := calls.foldl after a

/-- The account, once its store has been told something. -/
def told (a : Account Server) (order : Order) : Account Server :=
  { a with connector := a.connector.told order }

/-- What becomes of an account through several calls, if its store is told something before each. -/
def courseAmid (a : Account Server) (calls : List (Order × Call)) : Account Server :=
  calls.foldl (fun a turn => (a.told turn.1).after turn.2) a

/-- Whatever calls are made of an account that is new, on a store that is told at any time to fail other
commands or to refuse logins: the account remembers the folders that there are now, or none, and these are
what it answers, whether it is asked for the folders or for the names of all of them. It answers unless it
remembers none and they cannot be listed. -/
theorem remembered_folders_current (name inbox : String) (ruleFiles : List String) :
    (∀ (server : Server) (calls : List (Order × Call)) (order : Order),
      let a := (courseAmid { name, connector := server, inbox, ruleFiles } calls).told order
      a.UpToDate a.connector order order) ∧
    ∀ (store : Fickle) (calls : List Call),
      let a := course { name, connector := store, inbox, ruleFiles } calls
      a.UpToDate a.connector.server (a.connector.orders 0) (a.connector.orders 1) := by
  constructor
  · intro server calls order
    suffices h : ∀ a : Account Server, Current Server.listing a →
        Current Server.listing (courseAmid a calls) from
      ((h _ (current_of_none rfl)).of_same (b := told _ order) rfl rfl).upToDate (withSession_lists ..)
    induction calls with
    | nil => exact fun _ ha => ha
    | cons turn rest ih =>
      exact fun a ha => ih _ (after_current surveyed_server (ha.of_same (b := a.told turn.1) rfl rfl) turn.2)
  · intro store calls
    suffices h : ∀ a : Account Fickle, Current (fun store => store.server.listing) a →
        Current (fun store => store.server.listing) (course a calls) from
      (h _ (current_of_none rfl)).upToDate (withSession_lists_fickle ..)
    induction calls with
    | nil => exact fun _ ha => ha
    | cons call rest ih => exact fun a ha => ih _ (after_current surveyed_fickle ha call)

end Account

end Mailroom
