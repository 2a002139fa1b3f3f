import Mailroom.Proofs.Account.Current
import Mailroom.Proofs.Account.Errands
import Mailroom.Proofs.Mailstore.Attended
import Mailroom.Proofs.Mailstore.Indifferent
import Mailroom.Proofs.Search.Meaning

/-! Every session of an account is logged out.

Whatever is done with an account on a mail store, and whatever comes of it, each session that is opened for
it ends with its only logout (`Attended.Accounted`), whose own failure changes nothing that the account sees.
The result is that of the errand, which says what each call does on which sessions (`errand`). A store that
refuses logins is asked nothing (`TurnedAway`). `sessions_logged_out` says so of every call, and that no session
stays open between calls unless the store was told to fail a logout. -/
namespace Mailroom.Account
open Mailstore

/-! ### Stores that refuse logins -/

/-- What an operation comes to on a store that refuses logins: the store is as it was, and the operation fails
for that reason, or has not reached for the store. -/
structure TurnedAway {α : Type} (op : Mail (Account Server) α) (a : Account Server) : Prop where
  name : (op a).2.name = a.name
  store : (op a).2.connector = a.connector
  fails : (op a).1 = .error (.authentication a.name (.login "invalid credentials")) ∨ Offline op a

section
variable {call : Call} {a : Account Server}

theorem onSession_refused {α : Type} (op : Mail Session α) (hrefuses : a.connector.refusesLogin = true) :
    (onSession op a).1 = .error (.authentication a.name (.login "invalid credentials")) :=
  congrArg Prod.fst ((withSession_run a.name op a.connector).trans (if_pos hrefuses))

/-- An errand that takes a session ends at a store that refuses logins before anything is asked. -/
theorem perform_refused (hrefuses : a.connector.refusesLogin = true) (h : (a.errand call).reaches = true) :
    ((perform call a).1, (perform call a).2.connector) =
      (.error (.authentication a.name (.login "invalid credentials")), a.connector) := by
  rw [perform_errand]
  cases herrand : a.errand call with
  | done result =>
    rw [herrand] at h
    cases h
  | visit op next => rw [Errand.run, if_pos hrefuses]

theorem perform_turnedAway (hrefuses : a.connector.refusesLogin = true) : TurnedAway (perform call) a where
  name := (perform_follows call a).name
  store := by
    cases hreaches : (a.errand call).reaches with
    | true => exact congrArg Prod.snd (perform_refused hrefuses hreaches)
    | false => exact congrArg (fun outcome => outcome.2.connector) (perform_offline call a hreaches a.connector)
  fails := by
    cases hreaches : (a.errand call).reaches with
    | true => exact .inl (congrArg Prod.fst (perform_refused hrefuses hreaches))
    | false => exact .inr (perform_offline call a hreaches)

end

/-! ### Sessions of calls -/

section
variable {κ κ' α : Type} {R : κ → κ' → Prop}

/-- What comes to the same beside another connector, on that connector. -/
theorem alike_run {op : Mail (Account κ) α} {op' : Mail (Account κ') α} (h : Alike (Beside R) op op')
    (a : Account κ) {c : κ'} (hc : R a.connector c) :
    ∃ d, op' (a.withConnector c) = ((op a).1, (op a).2.withConnector d) ∧ R (op a).2.connector d := by
  obtain ⟨hresult, hsame, hafter⟩ := h a (a.withConnector c) ⟨rfl, hc⟩
  exact ⟨_, Prod.ext hresult.symm hsame, hafter⟩

end

/-- How a call on a mail store logs in and out. -/
structure LogsOut (a : Account Server) (call : Call) : Prop where
  /-- The sessions of the call are those that are noted if it is attended. -/
  attended : ∃ store : Attended, store.Accounted a.connector ∧ store.server = (perform call a).2.connector ∧
    perform call (a.withConnector (Attended.mk a.connector [])) =
      ((perform call a).1, (perform call a).2.withConnector store)
  /-- What comes of the call is what comes of the operations that it does on its sessions. -/
  errand : ((perform call a).1, (perform call a).2.connector) = (a.errand call).run a.name a.connector
  refused : a.connector.refusesLogin = true → TurnedAway (perform call) a
  fails : a.connector.refusesLogin = true → (a.errand call).reaches = true →
    (perform call a).1 = .error (.authentication a.name (.login "invalid credentials"))
  offline : (a.errand call).reaches = false → Offline (perform call) a
  /-- All comes to the same if the store fails the logout, or does not. -/
  indifferent : ∀ server : Server, a.connector.SameButLogout server →
    ∃ after : Server, (perform call a).2.connector.SameButLogout after ∧
      perform call (a.withConnector server) = ((perform call a).1, (perform call a).2.withConnector after)

theorem logsOut (a : Account Server) (call : Call) : LogsOut a call where
  attended := by
    have hbeside : Beside (fun (store : Attended) server => store.server = server ∧ store.Accounted a.connector)
        (a.withConnector (Attended.mk a.connector [])) a := ⟨rfl, rfl, .refl _⟩
    obtain ⟨hresult, hsame, hserver, haccounted⟩ := perform_alike attended_mirrors call _ _ hbeside
    refine ⟨_, haccounted, hserver, Prod.ext hresult ?_⟩
    rw [hsame]
    rfl
  errand := perform_errand call a
  refused := perform_turnedAway
  fails hrefuses hreaches := congrArg Prod.fst (perform_refused hrefuses hreaches)
  offline := perform_offline call a
  indifferent server hserver := by
    obtain ⟨after, hrun, hafter⟩ := alike_run (perform_alike indifferent_mirrors call) a hserver
    exact ⟨after, hafter, hrun⟩

/-- No session stays open after a call if its logout does not fail. -/
theorem after_closes {a : Account Server} (h : a.connector.opened = a.connector.closed)
    (hlogout : a.connector.failing ≠ some "LOGOUT") (call : Call) :
    (a.after call).connector.opened = (a.after call).connector.closed := by
  obtain ⟨store, haccounted, hserver, -⟩ := (logsOut a call).attended
  rw [← perform_after, ← hserver, haccounted.opened, haccounted.closed, if_neg hlogout, h]

/-- Whatever is done with an account, and whichever command its store fails: in each session that is opened
the last request is its only logout, and whether that fails makes no difference to what comes of the call. What
comes of it is what its operations come to on their sessions. If logins are refused nothing is requested, and a
call that needs one fails for that reason. So no session stays open between calls, unless the store was told to
fail a logout. -/
theorem sessions_logged_out :
    (∀ (a : Account Server) (call : Call), LogsOut a call) ∧
    (∀ {α : Type} (op : Mail Session α) (a : Account Server), a.connector.refusesLogin = false →
      (onSession op a).1 = (op (opened a.connector)).1) ∧
    ∀ (a : Account Server) (calls : List (Order × Call)), (∀ turn ∈ calls, turn.1.failing ≠ some "LOGOUT") →
      a.connector.opened = a.connector.closed →
      (courseAmid a calls).connector.opened = (courseAmid a calls).connector.closed := by
  refine ⟨logsOut, fun op a haccepts => ?_, fun a calls hcalls hclosed => ?_⟩
  · have hrun := (withSession_run a.name op a.connector).trans (if_neg (by simp [haccepts]))
    exact congrArg Prod.fst hrun
  · induction calls generalizing a with
    | nil => exact hclosed
    | cons turn rest ih =>
      obtain ⟨hlogout, hrest⟩ := List.forall_mem_cons.mp hcalls
      exact ih _ hrest (after_closes (a := a.told turn.1) hclosed hlogout turn.2)

/-- Ann's account on a store with two letters, which was told something. -/
def annsAmid (order : Order) : Account Server :=
  { name := "ann", connector := (SearchSpec.annAndBob []).server.told order }

/-- To move a letter to a folder that is not there. -/
def moveAway : Call := .moveMessages "INBOX" (.ofList [Uid.least]) "Gone"

/-- A move that is rejected ends with its only logout, and is rejected for the same reason if the logout fails.
Where logins are refused it is turned away. A move that the store fails leaves no session open. -/
theorem sessions_logged_out_moving :
    (LogsOut (annsAmid {}) moveAway ∧
      (perform moveAway ((annsAmid {}).withConnector (Attended.mk (annsAmid {}).connector []))).2.connector.visits =
        [["SELECT INBOX", "UID MOVE 1 Gone", "LOGOUT"]]) ∧
    (perform moveAway (annsAmid { failing := some "LOGOUT" })).1 = (perform moveAway (annsAmid {})).1 ∧
    TurnedAway (perform moveAway) (annsAmid { refusesLogin := true }) ∧
    (onSession (moveFrom "INBOX" (.ofList [Uid.least]) "Gone") (annsAmid {})).1 =
      .error (.mutationFailed (.moveTo "Gone") (.rejected (.noDestination "Gone"))) ∧
    (courseAmid (annsAmid {}) [({ failing := some "UID MOVE" }, moveAway)]).connector.opened =
      (courseAmid (annsAmid {}) [({ failing := some "UID MOVE" }, moveAway)]).connector.closed := by
  obtain ⟨hcalls, hresults, hclosed⟩ := sessions_logged_out
  refine ⟨⟨hcalls _ _, by decide +kernel⟩, ?_, (hcalls _ _).refused rfl, ?_, hclosed _ _ (by decide) rfl⟩
  · have hfailing : ∀ name, name ≠ "LOGOUT" → ((none : Option String) = some name ↔ some "LOGOUT" = some name) :=
      fun name hname => ⟨nofun, fun h => absurd (Option.some.inj h).symm hname⟩
    obtain ⟨after, -, hrun⟩ := (hcalls (annsAmid {}) moveAway).indifferent
      (annsAmid { failing := some "LOGOUT" }).connector ⟨rfl, rfl, rfl, rfl, rfl, hfailing⟩
    exact (Prod.ext_iff.mp hrun).1
  · rw [hresults _ _ rfl]
    rfl

end Mailroom.Account
