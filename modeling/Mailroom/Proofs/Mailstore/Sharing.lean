import Mathlib.Data.Set.Basic
import Mailroom.Proofs.Mailstore.Continuing
import Mailroom.Proofs.Mailstore.Granted

/-! A mail store that several sessions use at the same time.

A `World` is a store with the sessions on it, and with what nobody looks at: which identifiers the
messages in each folder ever had, and how many messages were ever put into it. These annals belong to the
folder and go with it when it is renamed. A `Reachable` world is one to which any interleaving of calls,
deliveries and orders leads, as long as no folder runs out of identifiers. -/
namespace Mailroom.Mailstore
open Folder

/-! ### What a call brings -/

/-- The name before the call of the folder that has this name after it. -/
def formerName : SessionCall → String → String
  | .renameFolder old new => beforeRename old new
  | _ => id

namespace Session

/-- The given messages, as far as they are in the open folder. -/
def lookupOpen (s : Session) (uids : UidSet) : List Message :=
  match s.handle.selected with
  | some (name, _) => ((s.server.folders.find? name).getD {}).lookup uids
  | none => []

/-- The messages that the call puts into the folder of this name, if it succeeds. -/
def brings (s : Session) : SessionCall → String → List Message
  | .moveMessages uids destination | .copyMessages uids destination =>
    arrivingIn destination (s.lookupOpen uids)
  | _ => fun _ => []

variable {s t : Session} {call : SessionCall}

theorem lookupOpen_hasOpen {name : String} {readOnly : Bool} {f : Folder} (h : s.HasOpen name readOnly f)
    (uids : UidSet) : s.lookupOpen uids = f.lookup uids := by
  simp only [lookupOpen, h.selected, h.there, Option.getD_some]

theorem lookupOpen_empty {uids : UidSet} (h : uids.isEmpty = true) (s : Session) :
    s.lookupOpen uids = [] := by
  obtain rfl := SortedSet.isEmpty_iff.mp h
  unfold lookupOpen
  split <;> rfl

/-- A call that is given no messages brings none. -/
theorem brings_idle (h : call.isIdle = true) (s : Session) : s.brings call = fun _ => [] := by
  funext name
  cases call with
  | moveMessages uids | copyMessages uids =>
    rw [brings, lookupOpen_empty h, arrivingIn, ite_self]
  | _ => rfl

theorem formerName_idle (h : call.isIdle = true) : formerName call = id := by
  cases call <;> first | rfl | cases h

/-- A call that is granted lets the folders go on. -/
theorem Granted.goOn (h : s.Granted call t) (hn : Numbered s.server.folders)
    (hroom : ∀ name, ((s.server.folders.find? (formerName call name)).getD {}).shelf.next +
      (s.brings call name).length < UInt32.size) :
    GoOn s.server.folders t.server.folders (formerName call) (s.brings call) := by
  cases h with
  | idle hidle =>
    rw [brings_idle hidle, formerName_idle hidle]
    exact goOn_same hn
  | listed | opened | found | told | ended => exact goOn_same hn
  | @moved uids source destination f _ _ hopen _ _ | @copied uids source destination _ f _ hopen _ _ =>
    rw [brings, lookupOpen_hasOpen hopen]
    refine goOn_transferred hn fun g hg => ?_
    have hlt := hroom destination
    rw [brings, lookupOpen_hasOpen hopen, arrivingIn, if_pos rfl] at hlt
    change ((s.server.folders.find? destination).getD {}).shelf.next + _ < _ at hlt
    rwa [hg] at hlt
  | marked => exact goOn_change hn fun f hf => continues_markDeleted hf _
  | expunged => exact goOn_change hn fun f hf => (remnant_expunge f _).continues hf
  | created _ hnew => exact goOn_create hn hnew
  | renamed _ _ hf => exact goOn_rename hn hf
  | deleted => exact goOn_erase hn _

end Session

/-! ### Worlds -/

/-- What has happened to a folder: which identifiers messages in it ever had, and how many messages were
put into it. -/
structure Annals where
  held : Set Uid := ∅
  arrivals : Nat := 0

/-- A store, the sessions on it in the order in which they were opened, and the annals of its folders by
name. -/
structure World where
  server : Server
  sessions : List Handle := []
  annals : String → Annals := fun _ => {}

/-- Something that happens to a store. -/
inductive Event
  | deliver (folder : String) (m : Message)
  | addFolder (name : String)
  /-- The store is told what to grant. -/
  | order (order : Order)
  | connect
  /-- A call of one of the sessions. -/
  | call (session : Nat) (call : SessionCall)

namespace World
variable (w : World)

/-- What comes of an event, and the store and the sessions that it leaves. A session that has not been
opened can do nothing. -/
def outcome : Event → Except SessionError Unit × Server × List Handle
  | .deliver folder m => (.ok (), (w.server.deliver folder m).2, w.sessions)
  | .addFolder name => (.ok (), w.server.addFolder name, w.sessions)
  | .order order => (.ok (), w.server.told order, w.sessions)
  | .connect =>
    match w.server.connect with
    | (.ok s, server) => (.ok (), server, w.sessions ++ [s.handle])
    | (.error e, server) => (.error e, server, w.sessions)
  | .call i call =>
    match w.sessions[i]? with
    | some handle =>
      let (result, s) := call.perform (⟨w.server, handle⟩ : Session)
      (result, s.server, w.sessions.set i s.handle)
    | none => (.error .closed, w.server, w.sessions)

/-- Whether the event succeeds. -/
def result (e : Event) : Except SessionError Unit := (w.outcome e).1

/-- The messages that the event puts into the folder of this name. -/
def brings (e : Event) (name : String) : List Message :=
  match e, w.result e with
  | .deliver folder m, .ok _ => arrivingIn folder [m] name
  | .call i call, .ok _ =>
    match w.sessions[i]? with
    | some handle => Session.brings ⟨w.server, handle⟩ call name
    | none => []
  | _, _ => []

/-- The name before the event of the folder that has this name after it. -/
def former (e : Event) (name : String) : String :=
  match e, w.result e with
  | .call _ call, .ok _ => formerName call name
  | _, _ => name

/-- The annals before the event of the folder that has this name after it. -/
def heritage (e : Event) (name : String) : Annals :=
  if w.server.folders.contains (w.former e name) then w.annals (w.former e name) else {}

/-- The world after the event. -/
def next (e : Event) : World where
  server := (w.outcome e).2.1
  sessions := (w.outcome e).2.2
  annals name :=
    { held := (w.heritage e name).held ∪
        { u | ∃ f m, (w.outcome e).2.1.folders.find? name = some f ∧ f.messages.find? u = some m }
      arrivals := (w.heritage e name).arrivals + (w.brings e name).length }

/-- After the event there are identifiers left for every folder. -/
def HasRoom (e : Event) : Prop := ∀ name, ((w.next e).annals name).arrivals < UInt32.size - 1

/-- Any interleaving of events leads here, on a store that was new. -/
inductive Reachable : World → Prop
  | start {server : Server} (hnew : ∀ name f, server.folders.find? name = some f → f = {}) :
    Reachable { server }
  | step {w : World} {e : Event} (h : Reachable w) (hroom : w.HasRoom e) : Reachable (w.next e)

/-! ### What an event comes to -/

variable {w} {e : Event}

theorem next_connect_folders (w : World) : (w.next .connect).server.folders = w.server.folders := by
  have hserver : (w.next .connect).server = w.server.connect.2 := by
    show (w.outcome .connect).2.1 = _
    unfold outcome
    rcases w.server.connect with ⟨_ | _, _⟩ <;> rfl
  rw [hserver, Server.connect]
  split <;> rfl

/-- A call is granted by the store, or it fails and leaves the folders as they are. -/
theorem call_ends (w : World) (i : Nat) (call : SessionCall) :
    (∃ handle t, w.sessions[i]? = some handle ∧ Session.Granted ⟨w.server, handle⟩ call t ∧
      w.outcome (.call i call) = (.ok (), t.server, w.sessions.set i t.handle)) ∨
    ∃ err, w.result (.call i call) = .error err ∧
      (w.next (.call i call)).server.folders = w.server.folders := by
  rcases hi : w.sessions[i]? with _ | handle
  · refine .inr ⟨.closed, ?_, ?_⟩
    · simp [result, outcome, hi]
    · simp [next, outcome, hi]
  · rcases Session.perform_ends ⟨w.server, handle⟩ call with ⟨t, hgranted⟩ | ⟨err, t, hrun, ht⟩
    · refine .inl ⟨handle, t, rfl, hgranted, ?_⟩
      simp [outcome, hi, Session.perform_granted hgranted]
    · refine .inr ⟨err, ?_, ?_⟩
      · simp [result, outcome, hi, hrun]
      · have hfolders : t.server.folders = w.server.folders := by
          rcases ht with rfl | ⟨command, rfl⟩ <;> rfl
        simp [next, outcome, hi, hrun, hfolders]

/-- An event that fails leaves the folders as they are. -/
theorem next_of_error {err : SessionError} (h : w.result e = .error err) :
    (w.next e).server.folders = w.server.folders := by
  cases e with
  | deliver | addFolder | order => cases h
  | connect => exact w.next_connect_folders
  | call i call =>
    rcases w.call_ends i call with ⟨handle, t, -, -, hok⟩ | ⟨_, -, hfolders⟩
    · rw [result, hok] at h
      cases h
    · exact hfolders

theorem brings_of_error {err : SessionError} (h : w.result e = .error err) : w.brings e = fun _ => [] := by
  funext name
  unfold brings
  rw [h]
  cases e <;> rfl

theorem former_of_error {err : SessionError} (h : w.result e = .error err) : w.former e = id := by
  funext name
  unfold former
  rw [h]
  cases e <;> rfl

theorem brings_call {i : Nat} {call : SessionCall} {handle : Handle} (hi : w.sessions[i]? = some handle)
    (hok : w.result (.call i call) = .ok ()) :
    w.brings (.call i call) = Session.brings ⟨w.server, handle⟩ call := by
  funext name
  simp only [brings, hok, hi]

theorem former_call {i : Nat} {call : SessionCall} (hok : w.result (.call i call) = .ok ()) :
    w.former (.call i call) = formerName call := by
  funext name
  simp only [former, hok]

end World

end Mailroom.Mailstore
