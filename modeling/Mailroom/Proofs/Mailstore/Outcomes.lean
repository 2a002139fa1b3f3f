import Mailroom.Proofs.Mailstore.Requests

/-! What moving and deleting messages comes to, on any store.

By what it can do, a store moves messages with one command or with three, and holds the removal of
deleted messages to the given ones or not; and it may have been told to fail any of the commands.
`moved` and `discarded` are the folders if no command fails, `Partway` those that a move may leave
if one does. -/
namespace Mailroom.Mailstore.Session

/-- The second session is on the same store, with the same folder open. Its folders may be
others, and what was asked of it is not looked at. -/
structure Same (s t : Session) : Prop where
  failing : t.server.failing = s.server.failing
  handle : t.handle = s.handle

variable {s t v : Session} {source destination name : String} {f : Folder} {uids : UidSet}
  {capabilities : List Capability} {folders : SortedMap String Folder}

theorem Same.refl (s : Session) : Same s s := ⟨rfl, rfl⟩

theorem Same.trans (h : Same s t) (h' : Same t v) : Same s v :=
  ⟨h'.failing.trans h.failing, h'.handle.trans h.handle⟩

/-- A request that changes the folders changes them, or fails and leaves them. -/
theorem changed_ends {op : Op Unit} {command : Command} (h : op s = s.changed command folders) :
    Ends op s
      (fun _ t => Same s t ∧ t.server.folders = folders ∧ s.server.failing ≠ some command.name)
      (fun _ t => Same s t ∧ t.server.folders = s.server.folders ∧ s.server.failing = some command.name) := by
  unfold changed at h
  by_cases hc : s.server.failing = some command.name
  · rw [verdict_error hc] at h
    exact .error h ⟨⟨rfl, rfl⟩, rfl, hc⟩
  · rw [verdict_ok hc] at h
    exact .ok h ⟨⟨rfl, rfl⟩, rfl, hc⟩

/-- A request that looks something up leaves the folders in any case. -/
theorem asked_ends {α : Type} {op : Op α} {command : Command} {a : α}
    (h : op s = ((s.verdict command).map fun _ => a, s.asked command)) :
    Ends op s
      (fun b t => b = a ∧ Same s t ∧ t.server.folders = s.server.folders)
      (fun _ t => t.server.folders = s.server.folders ∧ s.server.failing = some command.name) := by
  by_cases hc : s.server.failing = some command.name
  · rw [verdict_error hc] at h
    exact .error h ⟨rfl, hc⟩
  · rw [verdict_ok hc] at h
    exact .ok h ⟨rfl, ⟨rfl, rfl⟩, rfl⟩

/-! ### Deleting -/

/-- The command with which messages are removed. -/
def removalName (capabilities : List Capability) : String :=
  if capabilities.contains .uidPlus then "UID EXPUNGE" else "EXPUNGE"

/-- The folders once messages have been deleted. -/
def discarded (capabilities : List Capability) (folders : SortedMap String Folder) (name : String)
    (uids : UidSet) : SortedMap String Folder :=
  folders.change name fun f => (f.markDeleted uids).expunge (scope capabilities uids)

theorem deleteMessages_ends (hne : uids.isEmpty = false) (hs : s.handle.selected = some (name, false)) :
    Ends (deleteMessages uids) s
      (fun _ t => Same s t ∧ t.server.folders = s.server.folders.change name (·.markDeleted uids) ∧
        s.server.failing ≠ some "UID STORE")
      (fun _ t => Same s t ∧ t.server.folders = s.server.folders ∧ s.server.failing = some "UID STORE") :=
  changed_ends (deleteMessages_run hne hs)

theorem removalCommand_name (capabilities : List Capability) (uids : UidSet) :
    (removalCommand (scope capabilities uids)).name = removalName capabilities := by
  unfold scope removalName
  split <;> rfl

/-- Marked messages are removed, and those marked before as well where removal cannot be held to
the given ones. -/
theorem expunge_ends (hne : uids.isEmpty = false) (hs : s.handle.selected = some (name, false))
    (hmarked : s.server.folders = folders.change name (·.markDeleted uids)) :
    Ends (expunge uids) s
      (fun _ t => Same s t ∧ t.server.folders = discarded s.handle.capabilities folders name uids ∧
        s.server.failing ≠ some (removalName s.handle.capabilities))
      (fun _ t => Same s t ∧ t.server.folders = s.server.folders ∧
        s.server.failing = some (removalName s.handle.capabilities)) := by
  have hfolders : s.server.folders.change name (·.expunge (scope s.handle.capabilities uids)) =
      discarded s.handle.capabilities folders name uids := by
    rw [hmarked, SortedMap.change_change]
    rfl
  have h := changed_ends (expunge_run hne hs)
  rw [hfolders, removalCommand_name] at h
  exact h

/-! ### Moving -/

/-- The commands with which messages are moved. -/
def moveCommands (capabilities : List Capability) : List String :=
  if capabilities.contains .move then ["UID MOVE"]
  else ["UID COPY", "UID STORE", removalName capabilities]

/-- The folders once messages of the folder `f`, which is `source`, have been moved. -/
def moved (capabilities : List Capability) (folders : SortedMap String Folder) (source destination : String)
    (f : Folder) (uids : UidSet) : SortedMap String Folder :=
  if capabilities.contains .move then transferred folders source destination f uids true
  else discarded capabilities (transferred folders source destination f uids false) source uids

/-- The folders that a move may leave if one of its commands fails. -/
inductive Partway (folders : SortedMap String Folder) (source destination : String) (f : Folder)
    (uids : UidSet) : SortedMap String Folder → Prop
  | untouched : Partway folders source destination f uids folders
  | copied : Partway folders source destination f uids
    (transferred folders source destination f uids false)
  | marked : Partway folders source destination f uids
    ((transferred folders source destination f uids false).change source (·.markDeleted uids))

/-- Messages are moved, or one of the commands for it fails. If that is the first, nothing is changed. -/
theorem moveOrCopy_ends (hne : uids.isEmpty = false) (hs : s.handle.selected = some (source, false))
    (hf : s.server.folders.find? source = some f) (hd : s.server.folders.contains destination = true) :
    Ends (MailSession.moveOrCopy uids destination) s
      (fun _ t => Same s t ∧
        t.server.folders = moved s.handle.capabilities s.server.folders source destination f uids ∧
        ∀ c ∈ moveCommands s.handle.capabilities, s.server.failing ≠ some c)
      (fun _ t => Same s t ∧ Partway s.server.folders source destination f uids t.server.folders ∧
        (s.server.failing = (moveCommands s.handle.capabilities).head? → t.server.folders = s.server.folders) ∧
        ∃ c ∈ moveCommands s.handle.capabilities, s.server.failing = some c) := by
  unfold moved moveCommands
  by_cases hmoves : s.handle.capabilities.contains .move = true
  · have hrun : MailSession.moveOrCopy uids destination s = moveMessages uids destination s := by
      have hhas : (MailSession.capabilities s).contains .move = true := hmoves
      rw [MailSession.moveOrCopy, bind_ok (get_run s), if_pos hhas]
      rfl
    simp only [if_pos hmoves, List.mem_singleton, forall_eq, exists_eq_left, List.head?_cons]
    refine .of_eq hrun ((changed_ends (moveMessages_run hne hmoves hs hf hd)).mono ?_ ?_)
    · exact fun _ t h => h
    · rintro _ t ⟨hsame, hfolders, hc⟩
      exact ⟨hsame, hfolders ▸ .untouched, fun _ => hfolders, hc⟩
  · have hrun : MailSession.moveOrCopy uids destination s =
        (copyMessages uids destination >>= fun _ => deleteMessages uids >>= fun _ => expunge uids) s := by
      have hhas : ¬ (MailSession.capabilities s).contains .move = true := hmoves
      rw [MailSession.moveOrCopy, bind_ok (get_run s), if_neg hhas]
      rfl
    simp only [if_neg hmoves, List.mem_cons, List.not_mem_nil, or_false, forall_eq_or_imp, forall_eq,
      exists_eq_or_imp, exists_eq_left, List.head?_cons]
    refine .of_eq hrun (.bind (changed_ends (copyMessages_run hne hs hf hd)) ?_ ?_)
    · rintro _ t ⟨hsame, hfolders, hc⟩
      exact ⟨hsame, hfolders ▸ .untouched, fun _ => hfolders, .inl hc⟩
    rintro _ t ⟨hst, hcopied, hcopy⟩
    have hs' : t.handle.selected = some (source, false) := by rw [hst.handle, hs]
    refine .bind (deleteMessages_ends hne hs') ?_ ?_
    · rintro _ v ⟨htv, hfolders, hc⟩
      refine ⟨hst.trans htv, ?_, fun hfirst => absurd hfirst hcopy, .inr (.inl (hst.failing ▸ hc))⟩
      rw [hfolders, hcopied]
      exact .copied
    rintro _ v ⟨htv, hmarked, hstore⟩
    have hs'' : v.handle.selected = some (source, false) := by rw [htv.handle, hs']
    have hsv := hst.trans htv
    rw [hcopied] at hmarked
    rw [hst.failing] at hstore
    refine (expunge_ends hne hs'' hmarked).mono ?_ ?_
    · rintro _ w ⟨hvw, hfolders, hc⟩
      rw [hsv.handle] at hfolders hc
      exact ⟨hsv.trans hvw, hfolders, hcopy, hstore, hsv.failing ▸ hc⟩
    · rintro _ w ⟨hvw, hfolders, hc⟩
      rw [hsv.handle, hsv.failing] at hc
      refine ⟨hsv.trans hvw, ?_, fun hfirst => absurd hfirst hcopy, .inr (.inr hc)⟩
      rw [hfolders, hmarked]
      exact .marked

end Mailroom.Mailstore.Session
