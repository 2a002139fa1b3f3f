import Mailroom.Proofs.Mailstore.Granted
import Mailroom.Proofs.Rules.Creating

/-! Stores that are told otherwise while they are in use.

A `Fickle` store gets another order before every session that is opened on it and before every call of a
session; what a session on it does is what a session on a store does, under the order of the moment
(`amid`). Whatever the orders, a call leaves the names of the folders as they are unless it manages folders
(`keeps_names`). -/
namespace Mailroom.Mailstore

/-- A store, and the orders that it will get. -/
structure Fickle where
  server : Server
  orders : Nat → Order

/-- The store under the next order. -/
def Fickle.ordered (store : Fickle) : Server := store.server.told (store.orders 0)

/-- The orders after the next one. -/
def later (orders : Nat → Order) : Nat → Order := fun n => orders (n + 1)

/-- A session on a store, and the orders that the store will get. -/
structure FickleSession where
  session : Session
  orders : Nat → Order

namespace FickleSession
variable {α : Type}

/-- The session under the next order. -/
def ordered (s : FickleSession) : Session := { s.session with server := s.session.server.told (s.orders 0) }

/-- Does something on the session under the next order. -/
def amid (op : Session.Op α) : SessionM FickleSession α := fun s =>
  ((op s.ordered).1, ⟨(op s.ordered).2, later s.orders⟩)

instance : MailSession FickleSession where
  capabilities s := s.session.handle.capabilities
  listFolders := amid Session.listFolders
  selectFolder folder readOnly := amid (Session.selectFolder folder readOnly)
  search keys := amid (Session.search keys)
  fetch uids attributes := amid (Session.fetch uids attributes)
  moveMessages uids destination := amid (Session.moveMessages uids destination)
  copyMessages uids destination := amid (Session.copyMessages uids destination)
  deleteMessages uids := amid (Session.deleteMessages uids)
  expunge uids := amid (Session.expunge uids)
  createFolder folder := amid (Session.createFolder folder)
  renameFolder old new := amid (Session.renameFolder old new)
  deleteFolder folder := amid (Session.deleteFolder folder)
  logout := amid Session.logout

end FickleSession

namespace Fickle

/-- Opens a session under the next order. -/
def connect (store : Fickle) : Except SessionError FickleSession × Fickle :=
  let (result, server) := store.ordered.connect
  (result.map fun session => ⟨session, later store.orders⟩, ⟨server, later store.orders⟩)

instance : Connector Fickle FickleSession where
  connect := connect
  release s := ⟨s.session.server, s.orders⟩

end Fickle

/-! ### The names of the folders -/

namespace Session

/-- Both sessions have folders of the same names. -/
def SameNames (s t : Session) : Prop := t.server.folders.keys = s.server.folders.keys

/-- A call that is granted leaves the names as they are unless it manages folders. -/
theorem Granted.sameNames {s t : Session} {call : SessionCall} (h : s.Granted call t)
    (hcall : call.managesFolders = false) : s.SameNames t := by
  cases h with
  | idle | listed | opened | found | told | ended => rfl
  | moved => exact (SortedMap.keys_change ..).trans (SortedMap.keys_change ..)
  | copied | marked | expunged => exact SortedMap.keys_change ..
  | created | renamed | deleted => cases hcall

theorem keeps_names : KeepsWithin Session SameNames := by
  intro call hcall s
  rcases perform_ends s call with ⟨t, hgranted⟩ | ⟨e, t, hrun, ht⟩
  · rw [perform_granted hgranted]
    exact hgranted.sameNames hcall
  · rw [hrun]
    rcases ht with rfl | ⟨command, rfl⟩ <;> rfl

end Session

namespace FickleSession

/-- What a call does is what it does on a store, under the next order. -/
theorem perform_amid (call : SessionCall) : call.perform = amid call.perform := by
  have houtcome : ∀ {α : Type} (op : Session.Op α), outcome (amid op) = amid (outcome op) := by
    intro α op
    funext s
    rw [outcome_run, amid, amid, outcome_run]
  cases call with
  | listFolders | selectFolder | search | fetch => exact houtcome _
  | _ => rfl

theorem keeps_names : KeepsWithin FickleSession fun s t => s.session.SameNames t.session := by
  intro call hcall s
  rw [perform_amid]
  exact Session.keeps_names call hcall s.ordered

end FickleSession

end Mailroom.Mailstore
