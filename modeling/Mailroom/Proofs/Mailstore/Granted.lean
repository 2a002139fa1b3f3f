import Mailroom.Proofs.Mailstore.Requests
import Mailroom.Proofs.Session.Calls

/-! Which calls a mail store grants.

An `Order` tells a store what to grant. `Granted` says what each call needs, of the folder that is open and
of the store, and which session it leaves then. `perform_ends` says that there is nothing else: a call that
is not granted fails, and is at most recorded. -/
namespace Mailroom.Mailstore

/-- What a store is told: what it can do, which command to fail and whether to refuse logins. -/
structure Order where
  capabilities : List Capability := [.imap4rev1, .move, .uidPlus]
  failing : Option String := none
  refusesLogin : Bool := false

/-- The store under an order. -/
def Server.told (s : Server) (order : Order) : Server :=
  { s with capabilities := order.capabilities, failing := order.failing, refusesLogin := order.refusesLogin }

namespace Session

/-- The store does not fail the command. -/
def Passes (s : Session) (command : Command) : Prop := s.server.failing ≠ some command.name

/-- The folder is open, and it is still there. -/
structure HasOpen (s : Session) (name : String) (readOnly : Bool) (f : Folder) : Prop where
  selected : s.handle.selected = some (name, readOnly)
  there : s.server.folders.find? name = some f

/-- The store grants the call, and leaves this session. -/
inductive Granted (s : Session) : SessionCall → Session → Prop
  | idle {call : SessionCall} (hidle : call.isIdle = true)
    (hopen : ∀ uids attributes, call = .fetch uids attributes → s.handle.selected ≠ none) :
    Granted s call s
  | listed (hpass : s.Passes (.list "" "*")) : Granted s .listFolders (s.asked (.list "" "*"))
  | opened {name : String} {readOnly : Bool} {f : Folder} (hpass : s.Passes (openingCommand name readOnly))
    (hf : s.server.folders.find? name = some f) :
    Granted s (.selectFolder name readOnly) ((s.asked (openingCommand name readOnly)).opening name readOnly)
  | found {keys : List SearchKey} {name : String} {readOnly : Bool} {f : Folder}
    (hopen : s.HasOpen name readOnly f) (hpass : s.Passes (.search keys)) :
    Granted s (.search keys) (s.asked (.search keys))
  | told {uids : UidSet} {attributes : List FetchAttribute} {name : String} {readOnly : Bool} {f : Folder}
    (hne : uids.isEmpty = false) (hopen : s.HasOpen name readOnly f)
    (hpass : s.Passes (.fetch uids attributes)) :
    Granted s (.fetch uids attributes) (s.asked (.fetch uids attributes))
  | moved {uids : UidSet} {source destination : String} {f : Folder} (hne : uids.isEmpty = false)
    (hcan : s.handle.capabilities.contains .move = true) (hopen : s.HasOpen source false f)
    (hpass : s.Passes (.move uids destination)) (hd : s.server.folders.contains destination = true) :
    Granted s (.moveMessages uids destination) ((s.asked (.move uids destination)).withFolders
      (transferred s.server.folders source destination f uids true))
  | copied {uids : UidSet} {source destination : String} {readOnly : Bool} {f : Folder}
    (hne : uids.isEmpty = false) (hopen : s.HasOpen source readOnly f)
    (hpass : s.Passes (.copy uids destination)) (hd : s.server.folders.contains destination = true) :
    Granted s (.copyMessages uids destination) ((s.asked (.copy uids destination)).withFolders
      (transferred s.server.folders source destination f uids false))
  | marked {uids : UidSet} {name : String} (hne : uids.isEmpty = false)
    (hopen : s.handle.selected = some (name, false)) (hpass : s.Passes (.addFlags uids [.deleted])) :
    Granted s (.deleteMessages uids) ((s.asked (.addFlags uids [.deleted])).withFolders
      (s.server.folders.change name (·.markDeleted uids)))
  | expunged {uids : UidSet} {name : String} (hne : uids.isEmpty = false)
    (hopen : s.handle.selected = some (name, false))
    (hpass : s.Passes (removalCommand (scope s.handle.capabilities uids))) :
    Granted s (.expunge uids) ((s.asked (removalCommand (scope s.handle.capabilities uids))).withFolders
      (s.server.folders.change name (·.expunge (scope s.handle.capabilities uids))))
  | created {name : String} (hpass : s.Passes (.create name))
    (hnew : s.server.folders.contains name = false) :
    Granted s (.createFolder name) ((s.asked (.create name)).withFolders (s.server.folders.insert name {}))
  | renamed {old new : String} {f : Folder} (hpass : s.Passes (.rename old new))
    (hnew : s.server.folders.contains new = false) (hf : s.server.folders.find? old = some f) :
    Granted s (.renameFolder old new) ((s.asked (.rename old new)).withFolders
      ((s.server.folders.erase old).insert new f))
  | deleted {name : String} (hpass : s.Passes (.delete name)) (hinbox : Ascii.same name "INBOX" = false)
    (hthere : s.server.folders.contains name = true) :
    Granted s (.deleteFolder name) ((s.asked (.delete name)).withFolders (s.server.folders.erase name))
  | ended (hpass : s.Passes .logout) : Granted s .logout
    { s.asked .logout with server := { (s.asked .logout).server with closed := s.server.closed + 1 } }

variable {s t : Session} {call : SessionCall} {command : Command} {α : Type}

/-! ### Calls that are granted -/

theorem verdict_passes (h : s.Passes command) : s.verdict command = .ok () := verdict_ok h

theorem request_passes (h : s.Passes command) (next : Unit → Op α) :
    (request command >>= next) s = next () (s.asked command) := by
  rw [request_then, verdict_passes h]

theorem unlessEmpty_run (uids : UidSet) (op : Op Unit) (s : Session) :
    unlessEmpty uids op s = if uids.isEmpty then (.ok (), s) else op s := by
  rw [unlessEmpty, ite_run]
  rfl

theorem changed_passes (h : s.Passes command) (folders : SortedMap String Folder) :
    s.changed command folders = (.ok (), (s.asked command).withFolders folders) := by
  rw [changed, verdict_passes h]

theorem perform_idle (hidle : call.isIdle = true)
    (hopen : ∀ uids attributes, call = .fetch uids attributes → s.handle.selected ≠ none) :
    call.perform s = (.ok (), s) := by
  cases call with
  | fetch uids attributes =>
    obtain ⟨selected, hselected⟩ := Option.ne_none_iff_exists'.mp (hopen uids attributes rfl)
    have hempty : uids.isEmpty = true := hidle
    show outcome (fetch uids attributes) s = _
    have hrun : fetch uids attributes s = (.ok .empty, s) := by
      simp only [fetch, bind_ok (selected_run hselected), if_pos hempty]
      rfl
    rw [outcome_run, hrun]
    rfl
  | moveMessages uids | copyMessages uids | deleteMessages uids | expunge uids =>
    have hempty : uids.isEmpty = true := hidle
    exact (unlessEmpty_run uids _ s).trans (if_pos hempty)
  | _ => cases hidle

/-- What is granted succeeds. -/
theorem perform_granted (h : s.Granted call t) : call.perform s = (.ok (), t) := by
  cases h with
  | idle hidle hopen => exact perform_idle hidle hopen
  | listed hpass =>
    show outcome listFolders s = _
    rw [outcome_run, listFolders_run, verdict_passes hpass]
    rfl
  | @opened name readOnly f hpass hf =>
    show outcome (selectFolder name readOnly) s = _
    rw [outcome_run, selectFolder_run readOnly hf, verdict_passes hpass]
    rfl
  | @found keys name readOnly f hopen hpass =>
    show outcome (search keys) s = _
    rw [outcome_run, search_run keys hopen.selected hopen.there, verdict_passes hpass]
    rfl
  | @told uids attributes name readOnly f hne hopen hpass =>
    show outcome (fetch uids attributes) s = _
    rw [outcome_run, fetch_run attributes hne hopen.selected hopen.there, verdict_passes hpass]
    rfl
  | moved hne hcan hopen hpass hd =>
    exact (moveMessages_run hne hcan hopen.selected hopen.there hd).trans (changed_passes hpass _)
  | copied hne hopen hpass hd =>
    exact (copyMessages_run hne hopen.selected hopen.there hd).trans (changed_passes hpass _)
  | marked hne hopen hpass => exact (deleteMessages_run hne hopen).trans (changed_passes hpass _)
  | expunged hne hopen hpass => exact (expunge_run hne hopen).trans (changed_passes hpass _)
  | created hpass hnew => exact (createFolder_run hnew).trans (changed_passes hpass _)
  | renamed hpass hnew hf => exact (renameFolder_run hnew hf).trans (changed_passes hpass _)
  | deleted hpass hinbox hthere => exact (deleteFolder_run hinbox hthere).trans (changed_passes hpass _)
  | ended hpass => exact request_passes hpass _

/-! ### Calls that are not granted -/

/-- The operation fails, and is at most recorded. -/
def Refuses (op : Op α) (s : Session) : Prop :=
  ∃ e t, op s = (.error e, t) ∧ (t = s ∨ ∃ command, t = s.asked command)

theorem Refuses.outcome {op : Op α} (h : Refuses op s) : Refuses (outcome op) s := by
  obtain ⟨e, t, hrun, ht⟩ := h
  exact ⟨e, t, by rw [outcome_run, hrun]; rfl, ht⟩

section
variable {granted : Prop}

/-- A request is refused if the store fails it, and otherwise if it fails right after. -/
theorem request_ends {next : Unit → Op α}
    (h : s.Passes command → granted ∨ ∃ e, next () (s.asked command) = (.error e, s.asked command)) :
    granted ∨ Refuses (request command >>= next) s := by
  by_cases hpass : s.Passes command
  · refine (h hpass).imp_right ?_
    rintro ⟨e, he⟩
    exact ⟨e, _, (request_passes hpass next).trans he, .inr ⟨command, rfl⟩⟩
  · have hfails := verdict_error (Classical.not_not.mp hpass)
    exact .inr ⟨_, _, by rw [request_then, hfails], .inr ⟨command, rfl⟩⟩

/-- Without an open folder nothing is asked of it. -/
theorem selected_ends {next : String × Bool → Op α}
    (h : ∀ name readOnly, s.handle.selected = some (name, readOnly) →
      granted ∨ Refuses (next (name, readOnly)) s) :
    granted ∨ Refuses (selected >>= next) s := by
  rcases hs : s.handle.selected with _ | ⟨name, readOnly⟩
  · refine .inr ⟨.noFolderSelected, s, bind_error ?_, .inl rfl⟩
    simp [selected, bind_run, hs]
  · rw [Refuses, bind_ok (selected_run hs)]
    exact h name readOnly hs

/-- Nothing is written to a folder that is open for reading only. -/
theorem writable_ends {next : String → Op α}
    (h : ∀ name, s.handle.selected = some (name, false) → granted ∨ Refuses (next name) s) :
    granted ∨ Refuses (writable >>= next) s := by
  rcases hs : s.handle.selected with _ | ⟨name, _ | _⟩
  · refine .inr ⟨.noFolderSelected, s, bind_error ?_, .inl rfl⟩
    simp [writable, selected, bind_run, hs]
  · rw [Refuses, bind_ok (writable_run hs)]
    exact h name hs
  · refine .inr ⟨.rejected .readOnly, s, bind_error ?_, .inl rfl⟩
    simp [writable, selected, bind_run, hs, reject]

/-- Messages are taken away only from a folder that is open for writing. -/
theorem source_ends {next : String → Op α} {removes : Bool}
    (h : ∀ name readOnly, s.handle.selected = some (name, readOnly) → (removes = true → readOnly = false) →
      granted ∨ Refuses (next name) s) :
    granted ∨ Refuses (if removes then writable >>= next else Prod.fst <$> selected >>= next) s := by
  cases removes with
  | true => exact writable_ends fun name hs => h name false hs fun _ => rfl
  | false =>
    show granted ∨ Refuses (Prod.fst <$> selected >>= next) s
    have hmap : ((Prod.fst <$> selected) >>= next) s = (selected >>= fun source => next source.1) s := by
      rw [bind_run, map_run, bind_run]
      rcases selected s with ⟨_ | _, _⟩ <;> rfl
    rw [Refuses, hmap]
    exact selected_ends fun name readOnly hs => h name readOnly hs nofun

/-- A call about messages comes to nothing if there are none. -/
theorem unlessEmpty_ends {uids : UidSet} {op : Op Unit}
    (h : uids.isEmpty = false → granted ∨ Refuses op s) (hidle : uids.isEmpty = true → granted) :
    granted ∨ Refuses (unlessEmpty uids op) s := by
  by_cases hempty : uids.isEmpty = true
  · exact .inl (hidle hempty)
  · rw [Refuses, unlessEmpty_run, if_neg hempty]
    exact h (Bool.eq_false_iff.mpr hempty)

theorem folderNamed_missing {name : String} (h : s.server.folders.find? name = none) (next : Folder → Op α) :
    (folderNamed name >>= next) s = (.error .closed, s) := by
  refine bind_error ?_
  simp [folderNamed, bind_run, h]

/-- Messages are put into a folder that is there, and taken from a folder that is open and still there. -/
theorem transfer_ends {uids : UidSet} {destination : String} {removes : Bool}
    (h : ∀ source readOnly f, s.HasOpen source readOnly f → (removes = true → readOnly = false) →
      s.Passes command → s.server.folders.contains destination = true → granted) :
    granted ∨ Refuses (transfer command uids destination removes) s := by
  refine source_ends fun source readOnly hs hwrites => request_ends fun hpass => ?_
  rw [bind_ok (folders_run _), asked_folders]
  by_cases hd : s.server.folders.contains destination = true
  · rcases hf : s.server.folders.find? source with _ | f
    · simp only [hd, Bool.not_true, Bool.false_eq_true, if_false]
      exact .inr ⟨.closed, folderNamed_missing (s := s.asked command) hf _⟩
    · exact .inl (h source readOnly f ⟨hs, hf⟩ hwrites hpass hd)
  · rw [Bool.not_eq_true] at hd
    simp only [hd, Bool.not_false, if_true]
    exact .inr ⟨.rejected (.noDestination destination), rfl⟩

end

/-- A call is granted, or it is refused. -/
theorem perform_ends (s : Session) (call : SessionCall) :
    (∃ t, s.Granted call t) ∨ Refuses call.perform s := by
  cases call with
  | listFolders =>
    refine Or.imp_right Refuses.outcome (request_ends fun hpass => ?_)
    exact .inl ⟨_, .listed hpass⟩
  | selectFolder name readOnly =>
    refine Or.imp_right Refuses.outcome (request_ends fun hpass => ?_)
    rcases hf : s.server.folders.find? name with _ | f
    · right
      refine ⟨.rejected (.noMailbox name), ?_⟩
      rw [bind_ok (folders_run _), asked_folders, hf]
      rfl
    · exact .inl ⟨_, .opened hpass hf⟩
  | search keys =>
    refine Or.imp_right Refuses.outcome (selected_ends fun name readOnly hs => request_ends fun hpass => ?_)
    rcases hf : s.server.folders.find? name with _ | f
    · exact .inr ⟨.closed, folderNamed_missing (s := s.asked (.search keys)) hf _⟩
    · exact .inl ⟨_, .found ⟨hs, hf⟩ hpass⟩
  | fetch uids attributes =>
    refine Or.imp_right Refuses.outcome (selected_ends fun name readOnly hs => ?_)
    by_cases hempty : uids.isEmpty = true
    · exact .inl ⟨s, .idle hempty fun _ _ _ => by simp [hs]⟩
    · simp only [if_neg hempty]
      refine request_ends fun hpass => ?_
      rcases hf : s.server.folders.find? name with _ | f
      · exact .inr ⟨.closed, folderNamed_missing (s := s.asked (.fetch uids attributes)) hf _⟩
      · exact .inl ⟨_, .told (Bool.eq_false_iff.mpr hempty) ⟨hs, hf⟩ hpass⟩
  | moveMessages uids destination =>
    refine unlessEmpty_ends (fun hne => ?_) fun hempty => ⟨s, .idle hempty nofun⟩
    rw [Refuses, bind_ok (has_run .move s)]
    by_cases hcan : s.handle.capabilities.contains .move = true
    · simp only [hcan, Bool.not_true, Bool.false_eq_true, if_false]
      refine transfer_ends fun source readOnly f hopen hwrites hpass hd => ?_
      obtain rfl := hwrites rfl
      exact ⟨_, .moved hne hcan hopen hpass hd⟩
    · simp only [Bool.not_eq_true] at hcan
      simp only [hcan, Bool.not_false, if_true]
      exact .inr ⟨.imap (.protocol .noMove), s, rfl, .inl rfl⟩
  | copyMessages uids destination =>
    refine unlessEmpty_ends (fun hne => ?_) fun hempty => ⟨s, .idle hempty nofun⟩
    exact transfer_ends fun source readOnly f hopen _ hpass hd => ⟨_, .copied hne hopen hpass hd⟩
  | deleteMessages uids =>
    refine unlessEmpty_ends (fun hne => writable_ends fun name hs => request_ends fun hpass => ?_)
      fun hempty => ⟨s, .idle hempty nofun⟩
    exact .inl ⟨_, .marked hne hs hpass⟩
  | expunge uids =>
    refine unlessEmpty_ends (fun hne => writable_ends fun name hs => ?_)
      fun hempty => ⟨s, .idle hempty nofun⟩
    rw [Refuses, bind_ok (has_run .uidPlus s)]
    have hpasses : ∀ command, s.Passes command → removalCommand (scope s.handle.capabilities uids) = command →
        ∃ t, s.Granted (.expunge uids) t := by
      rintro _ hpass rfl
      exact ⟨_, .expunged hne hs hpass⟩
    by_cases hcan : s.handle.capabilities.contains .uidPlus = true
    · simp only [hcan, if_true]
      exact request_ends fun hpass => .inl (hpasses _ hpass (by rw [scope, if_pos hcan]; rfl))
    · rw [Bool.not_eq_true] at hcan
      simp only [hcan, Bool.false_eq_true, if_false]
      exact request_ends fun hpass => .inl (hpasses _ hpass (by rw [scope, hcan]; rfl))
  | createFolder name =>
    refine request_ends fun hpass => ?_
    rw [bind_ok (folders_run _), asked_folders]
    rcases hnew : s.server.folders.contains name with _ | _
    · exact .inl ⟨_, .created hpass hnew⟩
    · exact .inr ⟨.rejected (.mailboxExists name), rfl⟩
  | renameFolder old new =>
    refine request_ends fun hpass => ?_
    rw [bind_ok (folders_run _), asked_folders]
    rcases hnew : s.server.folders.contains new with _ | _
    · rcases hf : s.server.folders.find? old with _ | f
      · exact .inr ⟨.rejected (.noMailbox old), rfl⟩
      · exact .inl ⟨_, .renamed hpass hnew hf⟩
    · exact .inr ⟨.rejected (.mailboxExists new), rfl⟩
  | deleteFolder name =>
    refine request_ends fun hpass => ?_
    rw [bind_ok (folders_run _), asked_folders]
    rcases hkept : (Ascii.same name "INBOX" || !s.server.folders.contains name) with _ | _
    · simp only [Bool.or_eq_false_iff, Bool.not_eq_false'] at hkept
      exact .inl ⟨_, .deleted hpass hkept.1 hkept.2⟩
    · exact .inr ⟨.rejected (.undeletable name), rfl⟩
  | logout =>
    refine request_ends fun hpass => ?_
    exact .inl ⟨_, .ended hpass⟩

end Session

end Mailroom.Mailstore
