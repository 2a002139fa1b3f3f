import Mailroom.Proofs.Session.Running

/-! Sessions through any sequence of calls.

A `SessionCall` is an operation of a session together with what it is given, so that sequences of them
can be spoken of on any kind of session. `follow` makes several calls and keeps what came of each. Of
the attempts to open a folder, `Course.lastOpening` is the most recent one and `Course.opened` the
folder of the most recent one that succeeded. -/
namespace Mailroom

/-- An operation of a session, with what it is given. -/
inductive SessionCall
  | listFolders
  | selectFolder (folder : String) (readOnly : Bool)
  | search (keys : List SearchKey)
  | fetch (uids : UidSet) (attributes : List FetchAttribute)
  | moveMessages (uids : UidSet) (destination : String)
  | copyMessages (uids : UidSet) (destination : String)
  | deleteMessages (uids : UidSet)
  | expunge (uids : UidSet)
  | createFolder (folder : String)
  | renameFolder (old new : String)
  | deleteFolder (folder : String)
  | logout
  deriving DecidableEq

/-- The operation, of which only the success matters. -/
def outcome {σ α : Type} (op : SessionM σ α) : SessionM σ Unit := (fun _ => ()) <$> op

@[simp] theorem outcome_run {σ α : Type} (op : SessionM σ α) (s : σ) :
    outcome op s = ((op s).1.map fun _ => (), (op s).2) := map_run ..

theorem outcome_unit {σ : Type} (op : SessionM σ Unit) : outcome op = op := by
  funext s
  rw [outcome_run]
  rcases op s with ⟨_ | _, _⟩ <;> rfl

namespace SessionCall

/-- Makes the call. -/
def perform {σ : Type} [MailSession σ] : SessionCall → SessionM σ Unit
  | listFolders => outcome MailSession.listFolders
  | selectFolder folder readOnly => outcome (MailSession.selectFolder folder readOnly)
  | search keys => outcome (MailSession.search keys)
  | fetch uids attributes => outcome (MailSession.fetch uids attributes)
  | moveMessages uids destination => MailSession.moveMessages uids destination
  | copyMessages uids destination => MailSession.copyMessages uids destination
  | deleteMessages uids => MailSession.deleteMessages uids
  | expunge uids => MailSession.expunge uids
  | createFolder folder => MailSession.createFolder folder
  | renameFolder old new => MailSession.renameFolder old new
  | deleteFolder folder => MailSession.deleteFolder folder
  | logout => MailSession.logout

/-- The messages that the call is about, if it is given any. -/
def given : SessionCall → Option UidSet
  | fetch uids _ | moveMessages uids _ | copyMessages uids _ | deleteMessages uids | expunge uids => some uids
  | _ => none

/-- Whether the call is about messages, but there is none among those that it is given. -/
def isIdle (call : SessionCall) : Bool := call.given.any (·.isEmpty)

/-- Whether the call is about messages of the open folder: a search, or a call that is given some. -/
def isOnMessages : SessionCall → Bool
  | search _ => true
  | call => call.given.any fun uids => !uids.isEmpty

/-- Whether the call asks for messages themselves. -/
def isFetch : SessionCall → Bool
  | fetch .. => true
  | _ => false

/-- Whether the call creates, renames or deletes a folder. -/
def managesFolders : SessionCall → Bool
  | createFolder _ | renameFolder .. | deleteFolder _ => true
  | _ => false

/-- The folder that the call opens, and whether for reading only. -/
def opens : SessionCall → Option (String × Bool)
  | selectFolder folder readOnly => some (folder, readOnly)
  | _ => none

/-- A call is not about messages of the open folder if it is given none. -/
theorem isOnMessages_of_isIdle {call : SessionCall} (h : call.isIdle = true) :
    call.isOnMessages = false := by
  cases call <;> simp_all [isIdle, isOnMessages, given]

theorem opens_of_isIdle {call : SessionCall} (h : call.isIdle = true) : call.opens = none := by
  cases call <;> first | rfl | cases h

end SessionCall

/-- A call that was made, and what came of it. -/
structure Turn where
  call : SessionCall
  result : Except SessionError Unit

/-- The folder that was opened in the turn, if one was. -/
def Turn.opened (turn : Turn) : Option (String × Bool) :=
  match turn.result with
  | .ok _ => turn.call.opens
  | .error _ => none

/-- A session, and the turns that led to it, latest first. -/
structure Course (σ : Type) where
  past : List Turn
  session : σ

namespace Course
variable {σ : Type}

/-- The course with one more call. -/
def next [MailSession σ] (w : Course σ) (call : SessionCall) : Course σ :=
  let (result, session) := call.perform w.session
  ⟨⟨call, result⟩ :: w.past, session⟩

variable (w : Course σ)

/-- The most recent attempt to open a folder. -/
def lastOpening : Option Turn := w.past.find? fun turn => turn.call.opens.isSome

/-- Whether the most recent attempt to open a folder succeeded. -/
def OpensLast : Prop := ∃ turn, w.lastOpening = some turn ∧ turn.result = .ok ()

/-- Whether any attempt to open a folder has failed. -/
def FailsToOpen : Prop := ∃ turn ∈ w.past, turn.call.opens.isSome = true ∧ turn.result ≠ .ok ()

/-- The folder that was opened last, and whether for reading only. Attempts that failed do not count. -/
def opened : Option (String × Bool) := w.past.findSome? Turn.opened

variable {w}

/-- Where a folder has been opened there was an attempt to open one. -/
theorem lastOpening_isSome {folder : String × Bool} (h : w.opened = some folder) :
    ∃ turn, w.lastOpening = some turn := by
  obtain ⟨turn, hturn, hopened⟩ := List.exists_of_findSome?_eq_some h
  have hopens : turn.call.opens.isSome = true := by
    unfold Turn.opened at hopened
    split at hopened
    · simp [hopened]
    · cases hopened
  exact Option.isSome_iff_exists.mp (List.find?_isSome.mpr ⟨turn, hturn, hopens⟩)

/-- The last attempt failed if there was one and it did not succeed. -/
theorem not_opensLast_iff {last : Turn} (h : w.lastOpening = some last) :
    ¬w.OpensLast ↔ ∃ e, last.result = .error e := by
  unfold OpensLast
  rw [h]
  rcases hresult : last.result with e | _ <;> simp [hresult]

end Course

section
variable {σ : Type} [MailSession σ]

/-- What becomes of a session through several calls. -/
def follow (s : σ) (calls : List SessionCall) : Course σ := calls.foldl Course.next ⟨[], s⟩

/-- What holds at first and is kept by every call holds after all of them. -/
theorem follow_induction {P : Course σ → Prop} {s : σ} (hstart : P ⟨[], s⟩)
    (hnext : ∀ w call, P w → P (w.next call)) (calls : List SessionCall) : P (follow s calls) := by
  suffices h : ∀ w, P w → P (calls.foldl Course.next w) from h _ hstart
  induction calls with
  | nil => exact fun _ hw => hw
  | cons call rest ih => exact fun w hw => ih _ (hnext w call hw)

variable (w : Course σ) (call : SessionCall)

theorem next_past : (w.next call).past = ⟨call, (call.perform w.session).1⟩ :: w.past := rfl

theorem next_session : (w.next call).session = (call.perform w.session).2 := rfl

theorem opensLast_next : (w.next call).OpensLast ↔
    if call.opens.isSome = true then (call.perform w.session).1 = .ok () else w.OpensLast := by
  unfold Course.OpensLast Course.lastOpening
  rw [next_past]
  by_cases h : call.opens.isSome = true <;> simp [h]

theorem failsToOpen_next : (w.next call).FailsToOpen ↔
    call.opens.isSome = true ∧ (call.perform w.session).1 ≠ .ok () ∨ w.FailsToOpen := by
  simp [Course.FailsToOpen, next_past]

theorem opened_next : (w.next call).opened =
    (Turn.opened ⟨call, (call.perform w.session).1⟩).or w.opened := by
  rw [Course.opened, next_past, List.findSome?_cons]
  rcases Turn.opened ⟨call, (call.perform w.session).1⟩ with _ | folder <;> rfl

end

end Mailroom
