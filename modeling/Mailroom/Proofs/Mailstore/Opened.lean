import Mailroom.Proofs.Mailstore.Granted

/-! Which folder a session on a mail store has open.

It is the one that was opened last (`followAmid_handle`): an attempt to open a folder that fails leaves
the one before open. So messages can still be asked for after such an attempt, and
`folder_stays_open` says exactly when; it also says which calls do nothing that are given no messages. -/
namespace Mailroom.Mailstore.Session

/-- The session on another store. -/
def on (s : Session) (server : Server) : Session := { s with server }

/-- The course with one more call, made on the store as it is by then. -/
def nextAmid (w : Course Session) (turn : Server × SessionCall) : Course Session :=
  Course.next { w with session := w.session.on turn.1 } turn.2

/-- What becomes of a session through several calls while others may use the store as well. -/
def followAmid (s : Session) (calls : List (Server × SessionCall)) : Course Session :=
  calls.foldl nextAmid ⟨[], s⟩

variable {s t : Session} {call : SessionCall}

/-- Only opening a folder changes which folder is open. -/
theorem Granted.handle_eq (h : s.Granted call t) :
    t.handle = { s.handle with selected := call.opens.or s.handle.selected } := by
  cases h with
  | idle hidle =>
    rw [SessionCall.opens_of_isIdle hidle]
    rfl
  | _ => rfl

/-- A call that is about messages of the open folder needs one. -/
theorem Granted.selected_of_isOnMessages (h : s.Granted call t) (hcall : call.isOnMessages = true) :
    ∃ folder readOnly, s.handle.selected = some (folder, readOnly) := by
  cases h with
  | idle hidle => simp [SessionCall.isOnMessages_of_isIdle hidle] at hcall
  | found hopen | told _ hopen | moved _ _ hopen | copied _ hopen => exact ⟨_, _, hopen.selected⟩
  | marked _ hopen | expunged _ hopen => exact ⟨_, _, hopen⟩
  | _ => cases hcall

/-- A call succeeds if and only if it is granted. -/
theorem perform_ok_iff : (call.perform s).1 = .ok () ↔ ∃ t, s.Granted call t := by
  constructor
  · intro hok
    refine (perform_ends s call).resolve_right ?_
    rintro ⟨e, t, hrun, -⟩
    rw [hrun] at hok
    cases hok
  · rintro ⟨t, hgranted⟩
    rw [perform_granted hgranted]

/-- A call that is given no messages does nothing. Only to fetch messages a folder must be open even then. -/
theorem perform_idle_run (hidle : call.isIdle = true) : call.perform s =
    if call.isFetch = true ∧ s.handle.selected = none then (.error .noFolderSelected, s) else (.ok (), s) := by
  by_cases hfetch : call.isFetch = true ∧ s.handle.selected = none
  · rw [if_pos hfetch]
    obtain ⟨hfetch, hselected⟩ := hfetch
    cases call with
    | fetch uids attributes =>
      have hnone : selected s = (.error .noFolderSelected, s) := by
        simp [selected, bind_run, hselected]
      show outcome (fetch uids attributes) s = _
      rw [outcome_run, fetch, bind_error hnone]
      rfl
    | _ => cases hfetch
  · rw [if_neg hfetch]
    refine perform_idle hidle fun uids attributes hcall hnone => hfetch ⟨?_, hnone⟩
    rw [hcall]
    rfl

/-- What is open after a call is what the call opened, or else what was open before. -/
theorem perform_selected (s : Session) (call : SessionCall) : (call.perform s).2.handle =
    { s.handle with selected := (Turn.opened ⟨call, (call.perform s).1⟩).or s.handle.selected } := by
  rcases perform_ends s call with ⟨t, hgranted⟩ | ⟨e, t, hrun, ht⟩
  · rw [perform_granted hgranted]
    exact hgranted.handle_eq
  · rw [hrun]
    rcases ht with rfl | ⟨command, rfl⟩ <;> rfl

/-- The open folder is the one that was opened last. -/
theorem followAmid_handle (server : Server) (capabilities : List Capability)
    (calls : List (Server × SessionCall)) :
    (followAmid ⟨server, { capabilities }⟩ calls).session.handle =
      ⟨capabilities, (followAmid ⟨server, { capabilities }⟩ calls).opened⟩ := by
  suffices h : ∀ w : Course Session, w.session.handle = ⟨capabilities, w.opened⟩ →
      (calls.foldl nextAmid w).session.handle = ⟨capabilities, (calls.foldl nextAmid w).opened⟩ from
    h ⟨[], _⟩ rfl
  induction calls with
  | nil => exact fun _ hw => hw
  | cons turn rest ih =>
    refine fun w hw => ih _ ?_
    show (turn.2.perform (w.session.on turn.1)).2.handle = _
    rw [perform_selected, nextAmid, opened_next]
    show Handle.mk w.session.handle.capabilities (Option.or _ w.session.handle.selected) = _
    rw [hw]
    rfl

/-- What is asked of messages is asked of the folder that was opened last. -/
theorem followAmid_ok_iff (server : Server) (capabilities : List Capability)
    (calls : List (Server × SessionCall)) (store : Server) (hcall : call.isOnMessages = true) :
    let w := followAmid ⟨server, { capabilities }⟩ calls
    (call.perform (w.session.on store)).1 = .ok () ↔ ∃ folder readOnly t, w.opened = some (folder, readOnly) ∧
      Granted ⟨store, capabilities, some (folder, readOnly)⟩ call t := by
  intro w
  have hs : w.session.on store = ⟨store, capabilities, w.opened⟩ :=
    congrArg (Session.mk store) (followAmid_handle server capabilities calls)
  rw [perform_ok_iff, hs]
  constructor
  · rintro ⟨t, hgranted⟩
    obtain ⟨folder, readOnly, hopened⟩ := hgranted.selected_of_isOnMessages hcall
    have hopened : w.opened = some (folder, readOnly) := hopened
    exact ⟨folder, readOnly, t, hopened, hopened ▸ hgranted⟩
  · rintro ⟨folder, readOnly, t, hopened, hgranted⟩
    exact ⟨t, hopened ▸ hgranted⟩

/-- The session on a store in any state, after any calls while others used the store as well. A search,
and a call that is given messages, succeeds if and only if the store grants it with that folder open
which was opened last: also when the last attempt to open one failed, and exactly then although it
failed. A call that is given no messages succeeds and does nothing, except that nothing can be fetched
before a folder has been opened. -/
theorem folder_stays_open (server : Server) (capabilities : List Capability)
    (calls : List (Server × SessionCall)) (store : Server) (call : SessionCall) :
    let w := followAmid ⟨server, { capabilities }⟩ calls
    let s := w.session.on store
    let reopened := fun folder readOnly => (⟨store, capabilities, some (folder, readOnly)⟩ : Session)
    (call.isOnMessages = true →
      ((call.perform s).1 = .ok () ↔ ∃ folder readOnly t, w.opened = some (folder, readOnly) ∧
        (reopened folder readOnly).Granted call t) ∧
      ((call.perform s).1 = .ok () ∧ ¬w.OpensLast ↔ ∃ turn e folder readOnly t,
        w.lastOpening = some turn ∧ turn.result = .error e ∧ w.opened = some (folder, readOnly) ∧
        (reopened folder readOnly).Granted call t)) ∧
    (call.isIdle = true → if call.isFetch = true ∧ w.opened = none
      then call.perform s = (.error .noFolderSelected, s)
      else call.perform s = (.ok (), s)) := by
  intro w s reopened
  refine ⟨fun hcall => ?_, fun hidle => ?_⟩
  · have hsuccess : (call.perform s).1 = .ok () ↔ _ :=
      followAmid_ok_iff server capabilities calls store hcall
    refine ⟨hsuccess, ?_⟩
    rw [hsuccess]
    constructor
    · rintro ⟨⟨folder, readOnly, t, hopened, hgranted⟩, hlast⟩
      obtain ⟨turn, hturn⟩ := Course.lastOpening_isSome hopened
      obtain ⟨e, he⟩ := (Course.not_opensLast_iff hturn).mp hlast
      exact ⟨turn, e, folder, readOnly, t, hturn, he, hopened, hgranted⟩
    · rintro ⟨turn, e, folder, readOnly, t, hturn, he, hopened, hgranted⟩
      exact ⟨⟨folder, readOnly, t, hopened, hgranted⟩, (Course.not_opensLast_iff hturn).mpr ⟨e, he⟩⟩
  · have hselected : s.handle.selected = w.opened :=
      congrArg Handle.selected (followAmid_handle server capabilities calls)
    rw [← hselected, perform_idle_run hidle]
    by_cases hfetch : call.isFetch = true ∧ s.handle.selected = none
    · simp only [if_pos hfetch]
    · simp only [if_neg hfetch]

/-- After an attempt to open a folder that is not there the inbox is searched, which had been opened before.
Before any folder has been opened a fetch fails even if it is given no messages. -/
theorem folder_stays_open_missing :
    let w := followAmid ⟨{}, { capabilities := [] }⟩
      [({}, .selectFolder "INBOX" false), ({}, .selectFolder "Sent" false)]
    let s := (followAmid ⟨{}, { capabilities := [] }⟩ []).session.on {}
    (((SessionCall.search [.all]).perform (w.session.on {})).1 = .ok () ∧ ¬w.OpensLast) ∧
      (SessionCall.fetch .empty []).perform s = (.error .noFolderSelected, s) := by
  have hexact := ((folder_stays_open {} [] [({}, .selectFolder "INBOX" false), ({}, .selectFolder "Sent" false)]
    {} (.search [.all])).1 rfl).2
  constructor
  · refine hexact.mpr ⟨⟨.selectFolder "Sent" false, .error (.rejected (.noMailbox "Sent"))⟩,
      .rejected (.noMailbox "Sent"), "INBOX", false, _, rfl, rfl, rfl, .found ⟨rfl, rfl⟩ nofun⟩
  · exact (folder_stays_open {} [] [] {} (.fetch .empty [])).2 rfl

end Mailroom.Mailstore.Session
