import Mailroom.Mailstore.Session
import Mailroom.Proofs.Session.Running
import Mailroom.Proofs.Sorted.Views

/-! What each request does to a mail store.

A request is recorded first (`asked`), and fails there if the store was told to fail it. The
lemmas named `_run` say what comes of a request and which store it leaves, each in one
equation; nothing that follows looks into a request again. -/
namespace Mailroom.Mailstore

/-- The messages of a folder that meet a condition, by identifier. -/
def Folder.matching (f : Folder) (p : Message → Bool) : UidSet :=
  (f.messages.filter fun _ m => p m).keySet

theorem Folder.mem_matching {f : Folder} {p : Message → Bool} {u : Uid} :
    u ∈ f.matching p ↔ ∃ m, f.messages.find? u = some m ∧ p m = true :=
  SortedMap.mem_keySet_filter

namespace Session

/-! ### Sessions that differ from another in one respect -/

/-- The session once a command has been recorded. -/
def asked (s : Session) (command : Command) : Session :=
  { s with server := { s.server with log := Server.recorded command :: s.server.log } }

/-- The session on other folders. -/
def withFolders (s : Session) (folders : SortedMap String Folder) : Session :=
  { s with server := { s.server with folders } }

/-- The session with a folder open. -/
def opening (s : Session) (name : String) (readOnly : Bool) : Session :=
  { s with handle := { s.handle with selected := some (name, readOnly) } }

@[simp] theorem asked_folders (s : Session) (command : Command) :
    (s.asked command).server.folders = s.server.folders := rfl

/-! ### The steps that requests are made of -/

/-- What comes of a request that is looked at no further. -/
def verdict (s : Session) (command : Command) : Except SessionError Unit :=
  if s.server.failing = some command.name then .error (.rejected (.failing command.name)) else .ok ()

theorem request_run (command : Command) (s : Session) :
    request command s = (s.verdict command, s.asked command) := by
  simp only [request, bind_run, modify_run, get_run, ite_run, reject, verdict]
  split <;> simp [asked]

/-- What follows a request happens only if the request did not fail. -/
theorem request_then {α : Type} (command : Command) (next : Unit → Op α) (s : Session) :
    (request command >>= next) s = match s.verdict command with
      | .ok a => next a (s.asked command)
      | .error e => (.error e, s.asked command) := by
  rw [bind_run, request_run]
  rcases s.verdict command with e | _ <;> rfl

theorem verdict_error {s : Session} {command : Command} (h : s.server.failing = some command.name) :
    s.verdict command = .error (.rejected (.failing command.name)) := if_pos h

theorem verdict_ok {s : Session} {command : Command} (h : s.server.failing ≠ some command.name) :
    s.verdict command = .ok () := if_neg h

theorem selected_run {s : Session} {open_ : String × Bool} (h : s.handle.selected = some open_) :
    selected s = (.ok open_, s) := by
  simp [selected, bind_run, h]

theorem writable_run {s : Session} {name : String} (h : s.handle.selected = some (name, false)) :
    writable s = (.ok name, s) := by
  simp [writable, bind_run, selected_run h]

@[simp] theorem folders_run (s : Session) : folders s = (.ok s.server.folders, s) := rfl

theorem folderNamed_run {s : Session} {name : String} {f : Folder}
    (h : s.server.folders.find? name = some f) : folderNamed name s = (.ok f, s) := by
  simp [folderNamed, bind_run, h]

theorem has_run (capability : Capability) (s : Session) :
    has capability s = (.ok (s.handle.capabilities.contains capability), s) := rfl

theorem changeFolder_run (name : String) (change : Folder → Folder) (s : Session) :
    changeFolder name change s = (.ok (), s.withFolders (s.server.folders.change name change)) := by
  simp only [changeFolder, bind_run, folders_run, SortedMap.change]
  rcases s.server.folders.find? name with _ | f <;> rfl

/-! ### Requests that look something up -/

/-- The command that opens a folder. -/
def openingCommand (name : String) (readOnly : Bool) : Command :=
  if readOnly then .examine name else .select name

/-- What is told of a folder when it is opened. -/
def statusOf (f : Folder) (readOnly : Bool) : Mailbox.Status where
  count := min f.messages.size (UInt32.size - 1)
  uidValidity := some 1
  uidNext := some (max f.nextUid 1)
  readOnly := readOnly

theorem selectFolder_run {s : Session} {name : String} {f : Folder} (readOnly : Bool)
    (h : s.server.folders.find? name = some f) :
    selectFolder name readOnly s = match s.verdict (openingCommand name readOnly) with
      | .ok _ => (.ok (statusOf f readOnly),
          (s.asked (openingCommand name readOnly)).opening name readOnly)
      | .error e => (.error e, s.asked (openingCommand name readOnly)) := by
  unfold selectFolder
  rw [request_then]
  unfold openingCommand
  rcases s.verdict (if readOnly then .examine name else .select name) with e | _
  · rfl
  · simp only [bind_run, folders_run, asked_folders, h]
    rfl

/-- A folder that is not there cannot be opened. -/
theorem selectFolder_missing {s : Session} {name : String} (readOnly : Bool)
    (h : s.server.folders.find? name = none) :
    ∃ e, selectFolder name readOnly s = (.error e, s.asked (openingCommand name readOnly)) ∧
      (s.server.failing = none → e = .rejected (.noMailbox name)) := by
  unfold selectFolder
  rw [request_then]
  unfold openingCommand
  by_cases hc : s.server.failing = some (Command.name (if readOnly then .examine name else .select name))
  · rw [verdict_error hc]
    refine ⟨_, rfl, fun hnone => ?_⟩
    rw [hnone] at hc
    cases hc
  · rw [verdict_ok hc]
    simp only [bind_run, folders_run, asked_folders, h]
    exact ⟨_, rfl, fun _ => rfl⟩

theorem search_run {s : Session} {name : String} {readOnly : Bool} {f : Folder} (keys : List SearchKey)
    (hs : s.handle.selected = some (name, readOnly)) (hf : s.server.folders.find? name = some f) :
    search keys s = ((s.verdict (.search keys)).map fun _ => f.matching fun m => keys.all m.isFound,
      s.asked (.search keys)) := by
  simp only [search, bind_ok (selected_run hs), request_then]
  rcases s.verdict (.search keys) with e | _
  · rfl
  · rw [bind_ok (folderNamed_run (by simpa using hf))]
    rfl

theorem fetch_run {s : Session} {name : String} {readOnly : Bool} {f : Folder} {uids : UidSet}
    (attributes : List FetchAttribute) (hne : uids.isEmpty = false)
    (hs : s.handle.selected = some (name, readOnly)) (hf : s.server.folders.find? name = some f) :
    fetch uids attributes s =
      ((s.verdict (.fetch uids attributes)).map fun _ => told f attributes uids,
        s.asked (.fetch uids attributes)) := by
  simp only [fetch, bind_ok (selected_run hs), hne, Bool.false_eq_true, if_false, request_then]
  rcases s.verdict (.fetch uids attributes) with e | _
  · rfl
  · rw [bind_ok (folderNamed_run (by simpa using hf))]
    rfl

theorem fetch_empty {s : Session} {open_ : String × Bool} (attributes : List FetchAttribute)
    (hs : s.handle.selected = some open_) : fetch .empty attributes s = (.ok .empty, s) := by
  simp only [fetch, bind_ok (selected_run hs)]
  rfl

theorem listFolders_run (s : Session) :
    listFolders s =
      ((s.verdict (.list "" "*")).map fun _ =>
          s.server.folders.keys.map fun name => ⟨[.hasNoChildren], some '/', name⟩,
        s.asked (.list "" "*")) := by
  simp only [listFolders, request_then]
  rcases s.verdict (.list "" "*") with e | _ <;> rfl

/-! ### Requests that change something -/

/-- What comes of a request that changes the folders and has nothing more to refuse. -/
def changed (s : Session) (command : Command) (fs : SortedMap String Folder) :
    Except SessionError Unit × Session :=
  match s.verdict command with
  | .ok _ => (.ok (), (s.asked command).withFolders fs)
  | .error e => (.error e, s.asked command)

theorem createFolder_run {s : Session} {name : String} (h : s.server.folders.contains name = false) :
    createFolder name s = s.changed (.create name) (s.server.folders.insert name {}) := by
  simp only [createFolder, request_then, changed]
  rcases s.verdict (.create name) with e | _
  · rfl
  · simp only [bind_run, folders_run, asked_folders, h]
    rfl

theorem renameFolder_run {s : Session} {old new : String} {f : Folder}
    (hnew : s.server.folders.contains new = false) (hf : s.server.folders.find? old = some f) :
    renameFolder old new s = s.changed (.rename old new) ((s.server.folders.erase old).insert new f) := by
  simp only [renameFolder, request_then, changed]
  rcases s.verdict (.rename old new) with e | _
  · rfl
  · simp only [bind_run, folders_run, asked_folders, hnew, hf]
    rfl

theorem deleteFolder_run {s : Session} {name : String} (hinbox : Ascii.same name "INBOX" = false)
    (hthere : s.server.folders.contains name = true) :
    deleteFolder name s = s.changed (.delete name) (s.server.folders.erase name) := by
  simp only [deleteFolder, request_then, changed]
  rcases s.verdict (.delete name) with e | _
  · rfl
  · simp only [bind_run, folders_run, asked_folders, hinbox, hthere]
    rfl

/-- The folders once messages of `source` have been put into `destination`, and taken away from
where they were or not. -/
def transferred (fs : SortedMap String Folder) (source destination : String) (f : Folder)
    (uids : UidSet) (removes : Bool) : SortedMap String Folder :=
  (if removes then fs.change source (·.remove uids) else fs).change destination
    (·.appendAll (f.lookup uids))

theorem transfer_run {s : Session} {source destination : String} {readOnly : Bool} {f : Folder}
    (command : Command) (uids : UidSet) (removes : Bool) (hs : s.handle.selected = some (source, readOnly))
    (hwrites : removes = true → readOnly = false) (hf : s.server.folders.find? source = some f)
    (hd : s.server.folders.contains destination = true) :
    transfer command uids destination removes s =
      s.changed command (transferred s.server.folders source destination f uids removes) := by
  have hsource : (Prod.fst <$> selected) s = (.ok source, s) := by
    rw [map_run, selected_run hs]
    rfl
  cases removes
  · simp only [transfer, Bool.false_eq_true, if_false, bind_ok hsource, request_then, changed]
    rcases s.verdict command with e | _
    · rfl
    · simp only [bind_ok (folders_run _), asked_folders, hd, Bool.not_true, Bool.false_eq_true, if_false,
        bind_ok (folderNamed_run (s := s.asked command) hf), changeFolder_run]
      rfl
  · rw [hwrites rfl] at hs
    simp only [transfer, if_true, bind_ok (writable_run hs), request_then, changed]
    rcases s.verdict command with e | _
    · rfl
    · simp only [bind_ok (folders_run _), asked_folders, hd, Bool.not_true, Bool.false_eq_true, if_false,
        bind_ok (folderNamed_run (s := s.asked command) hf), bind_ok (changeFolder_run _ _ _),
        changeFolder_run]
      rfl

theorem moveMessages_run {s : Session} {source destination : String} {f : Folder} {uids : UidSet}
    (hne : uids.isEmpty = false) (hc : s.handle.capabilities.contains .move = true)
    (hs : s.handle.selected = some (source, false)) (hf : s.server.folders.find? source = some f)
    (hd : s.server.folders.contains destination = true) :
    moveMessages uids destination s = s.changed (.move uids destination)
      (transferred s.server.folders source destination f uids true) := by
  have hhas : has .move s = (.ok true, s) := by
    rw [has_run, hc]
  simp only [moveMessages, unlessEmpty, hne, Bool.false_eq_true, if_false, bind_ok hhas, Bool.not_true,
    transfer_run _ _ _ hs (fun _ => rfl) hf hd]

theorem copyMessages_run {s : Session} {source destination : String} {readOnly : Bool} {f : Folder}
    {uids : UidSet} (hne : uids.isEmpty = false)
    (hs : s.handle.selected = some (source, readOnly)) (hf : s.server.folders.find? source = some f)
    (hd : s.server.folders.contains destination = true) :
    copyMessages uids destination s = s.changed (.copy uids destination)
      (transferred s.server.folders source destination f uids false) := by
  simp only [copyMessages, unlessEmpty, hne, Bool.false_eq_true, if_false,
    transfer_run (.copy uids destination) uids false hs nofun hf hd]

theorem deleteMessages_run {s : Session} {name : String} {uids : UidSet} (hne : uids.isEmpty = false)
    (hs : s.handle.selected = some (name, false)) :
    deleteMessages uids s = s.changed (.addFlags uids [.deleted])
      (s.server.folders.change name (·.markDeleted uids)) := by
  simp only [deleteMessages, unlessEmpty, hne, Bool.false_eq_true, if_false, bind_ok (writable_run hs),
    request_then, changed]
  rcases s.verdict (.addFlags uids [.deleted]) with e | _
  · rfl
  · rw [changeFolder_run, asked_folders]

/-- The messages to which a removal is held, where the store can hold it to some. -/
def scope (capabilities : List Capability) (uids : UidSet) : Option UidSet :=
  if capabilities.contains .uidPlus then some uids else none

/-- The command that removes messages that are marked deleted. -/
def removalCommand : Option UidSet → Command
  | some uids => .expungeOnly uids
  | none => .expunge

theorem expunge_run {s : Session} {name : String} {uids : UidSet} (hne : uids.isEmpty = false)
    (hs : s.handle.selected = some (name, false)) :
    expunge uids s = s.changed (removalCommand (scope s.handle.capabilities uids))
      (s.server.folders.change name (·.expunge (scope s.handle.capabilities uids))) := by
  simp only [expunge, unlessEmpty, hne, Bool.false_eq_true, if_false, bind_ok (writable_run hs),
    bind_ok (has_run .uidPlus s), scope, changed]
  by_cases hc : s.handle.capabilities.contains .uidPlus = true
  · simp only [hc, if_true, removalCommand, request_then]
    rcases s.verdict (.expungeOnly uids) with e | _
    · rfl
    · rw [changeFolder_run, asked_folders]
  · simp only [hc, if_false, removalCommand, request_then, Bool.false_eq_true]
    rcases s.verdict .expunge with e | _
    · rfl
    · rw [changeFolder_run, asked_folders]

/-- A logout is on record, and closes the session unless it fails. -/
theorem logout_run (s : Session) : (logout s).2 = if s.server.failing = some "LOGOUT" then s.asked .logout
    else { s.asked .logout with server := { (s.asked .logout).server with closed := s.server.closed + 1 } } := by
  have hrun := request_then .logout (fun _ => modify fun t : Session =>
    { t with server := { t.server with closed := t.server.closed + 1 } }) s
  rw [logout, hrun]
  by_cases hfails : s.server.failing = some "LOGOUT"
  · rw [if_pos hfails, verdict_error hfails]
  · rw [if_neg hfails, verdict_ok hfails]
    rfl

end Session

end Mailroom.Mailstore
