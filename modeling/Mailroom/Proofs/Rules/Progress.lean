import Mailroom.Proofs.Rules.Effects
import Mailroom.Proofs.Rules.Expected
import Mailroom.Rules.Run

/-! Runs of rules, request by request.

A run that is `Ready` knows rightly which folders there are. It goes through the requests of each
action and of each rule, and `Reaches` the folders that these lead to, or gets `Stuck` at a command
that the store was told to fail. `act_ends`, `apply_ends` and `applyAll_ends` say so of an action, of
a rule and of several rules. A move is its preparation and what follows it (`moveTo_eq`). -/
namespace Mailroom.Rules
open Mailstore Mailstore.Session

section
variable {σ α : Type} {good : α → σ → Prop}

theorem onSession_ends {op : Mail σ α} {run : Run σ} {bad : Failure → σ → Prop}
    (h : Ends op run.session good bad) :
    Ends (onSession op) run
      (fun a run' => ∃ t, run' = { run with session := t } ∧ good a t)
      (fun e run' => ∃ t, run' = { run with session := t } ∧ bad e t) := by
  unfold Ends at h ⊢
  unfold onSession
  rcases hop : op run.session with ⟨e | a, t⟩ <;> rw [hop] at h
  · exact ⟨t, rfl, h⟩
  · exact ⟨t, rfl, h⟩

/-- Of a request that fails it does not matter here what it was about. -/
theorem request_ends (run : Run σ) (explain : SessionError → Failure) {op : SessionM σ α}
    {bad : SessionError → σ → Prop} (h : Ends op run.session good bad) :
    Ends (onSession (Mail.lift explain op)) run
      (fun a run' => ∃ t, run' = { run with session := t } ∧ good a t)
      (fun _ run' => ∃ e t, run' = { run with session := t } ∧ bad e t) := by
  refine (onSession_ends (Mail.lift_ends h)).mono (fun _ _ hgood => hgood) ?_
  rintro _ run' ⟨t, hrun', e, -, hbad⟩
  exact ⟨e, t, hrun', hbad⟩

end

/-! ### Moves, in two steps -/

section
variable {σ : Type} [MailSession σ] (inbox : String)

/-- What is done before messages are moved: the folders are looked up, and a missing one is created. Says
whether it was missing. -/
def prepare (folder : String) : Mail (Run σ) Bool := do
  let missing := !(← knownFolders inbox).contains folder
  if missing then provide folder
  pure missing

/-- Messages are moved once all is prepared. -/
theorem moveTo_eq (uids : UidSet) (folder : String) :
    (moveTo inbox false uids folder : Mail (Run σ) Bool) =
      prepare inbox folder >>= fun missing =>
        onSession (Mail.mutate (.moveTo folder) (MailSession.moveOrCopy uids folder)) >>= fun _ =>
          pause >>= fun _ => pure missing := by
  funext run
  unfold moveTo prepare
  rw [bind_run, bind_run, bind_run]
  rcases (knownFolders inbox : Mail (Run σ) _) run with ⟨e | known, run₁⟩
  · rfl
  · rcases hmissing : !known.contains folder with _ | _
    · simp [hmissing]
    · simp only [hmissing, Bool.false_eq_true, if_false, if_true, bind_run]
      rcases provide folder run₁ with ⟨e | _, run₂⟩ <;> rfl

end

/-! ### What a run has come to -/

/-- A run that is to apply rules in this way. If it knows which folders there are, it is right. -/
structure Ready (way : Manner) (run : Run Session) : Prop where
  capabilities : run.session.handle.capabilities = way.capabilities
  hasInbox : run.session.server.folders.contains way.inbox = true
  informed : ∀ known, run.folders = some known → known = run.session.server.folders.keySet

/-- The second run is ready to go on from these folders, after so many pauses. -/
structure Reaches (way : Manner) (run : Run Session) (folders : SortedMap String Folder) (pauses : Nat)
    (run' : Run Session) : Prop extends Ready way run' where
  failing : run'.session.server.failing = run.session.server.failing
  folders : run'.session.server.folders = folders
  elapsed : run'.elapsed = run.elapsed + pacing * pauses

/-- The store was told to fail a command, and has been left with folders of this kind. -/
def Stuck (run : Run Session) (leaves : SortedMap String Folder → Prop) (run' : Run Session) : Prop :=
  run.session.server.failing ≠ none ∧ leaves run'.session.server.folders

section
variable {way : Manner} {run run₁ run₂ : Run Session} {folders later : SortedMap String Folder}
  {uids : UidSet} {n m : Nat}

theorem Reaches.trans (h : Reaches way run folders n run₁) (h' : Reaches way run₁ later m run₂) :
    Reaches way run later (n + m) run₂ where
  toReady := h'.toReady
  failing := h'.failing.trans h.failing
  folders := h'.folders
  elapsed := by rw [h'.elapsed, h.elapsed, Nat.mul_add, Nat.add_assoc]

/-- What is left after a step is left after the whole. -/
theorem Stuck.after {leaves leaves' : SortedMap String Folder → Prop} (hstuck : Stuck run₁ leaves run₂)
    (h : Reaches way run folders n run₁) (hleaves : ∀ left, leaves left → leaves' left) :
    Stuck run leaves' run₂ :=
  ⟨h.failing ▸ hstuck.1, hleaves _ hstuck.2⟩

/-- A step that neither creates nor loses a folder. -/
theorem Ready.step (h : Ready way run) {t : Session} (hsame : Same run.session t)
    (hfolders : t.server.folders = later)
    (hnames : ∀ name, later.contains name = run.session.server.folders.contains name) (pauses : Nat) :
    Reaches way run later pauses ⟨t, run.folders, run.elapsed + pacing * pauses⟩ where
  capabilities := by rw [hsame.handle, h.capabilities]
  hasInbox := by rw [hfolders, hnames, h.hasInbox]
  informed known hknown := by
    rw [hfolders, h.informed known hknown]
    apply SortedSet.ext
    intro name
    rw [← SortedSet.contains_iff, ← SortedSet.contains_iff, contains_keySet, contains_keySet, hnames]
  failing := hsame.failing
  folders := hfolders
  elapsed := rfl

/-- Once asked, a run knows the folders. -/
theorem knownFolders_ends (h : Ready way run) :
    Ends (knownFolders way.inbox) run
      (fun known run' => known = run.session.server.folders.keySet ∧
        Reaches way run run.session.server.folders 0 run' ∧ run'.session.handle = run.session.handle)
      (fun _ => Stuck run (· = run.session.server.folders)) := by
  unfold knownFolders
  refine .of_eq (bind_ok (get_run run)) ?_
  rcases hknown : run.folders with _ | known
  · have hlist := request_ends run (.queryFailed way.inbox) (asked_ends (listFolders_run run.session))
    refine .bind hlist ?_ ?_
    · rintro _ _ ⟨e, t, rfl, hfolders, hfailing⟩
      exact ⟨by simp [hfailing], hfolders⟩
    · rintro _ _ ⟨t, rfl, rfl, hsame, hfolders⟩
      have hreaches := h.step hsame hfolders (fun _ => rfl) 0
      refine .ok rfl ⟨listed_names _,
        ⟨⟨hreaches.capabilities, hreaches.hasInbox, ?_⟩, hsame.failing, hfolders, rfl⟩, hsame.handle⟩
      intro known hknown
      cases hknown
      show _ = t.server.folders.keySet
      rw [hfolders]
      exact listed_names _
  · exact .ok rfl ⟨h.informed known hknown, h.step (.refl _) rfl (fun _ => rfl) 0, rfl⟩

/-- A missing folder is created, and known from then on. -/
theorem provide_ends (h : Ready way run) {folder : String}
    (hmissing : run.session.server.folders.contains folder = false) :
    Ends (provide folder) run
      (fun _ run' => Reaches way run (run.session.server.folders.insert folder {}) 0 run' ∧
        run'.session.handle = run.session.handle)
      (fun _ => Stuck run (· = run.session.server.folders)) := by
  have hcreate := request_ends run (.mutationFailed (.create folder))
    (changed_ends (createFolder_run hmissing))
  refine .bind hcreate ?_ ?_
  · rintro _ _ ⟨e, t, rfl, -, hfolders, hfailing⟩
    exact ⟨by simp [hfailing], hfolders⟩
  · rintro _ _ ⟨t, rfl, hsame, hfolders, -⟩
    refine .ok rfl ⟨⟨⟨?_, ?_, ?_⟩, hsame.failing, hfolders, rfl⟩, hsame.handle⟩
    · show t.handle.capabilities = _
      rw [hsame.handle, h.capabilities]
    · show t.server.folders.contains _ = true
      rw [hfolders, SortedMap.contains_insert, h.hasInbox, Bool.or_true]
    · intro known hknown
      obtain ⟨before, hbefore, rfl⟩ := Option.map_eq_some_iff.mp hknown
      show _ = t.server.folders.keySet
      rw [hfolders, SortedMap.keySet_insert, h.informed before hbefore]

/-- Messages are moved to a folder that is there. -/
theorem moved_ends (h : Ready way run) (hne : uids.isEmpty = false)
    (hopen : run.session.handle.selected = some (way.inbox, false)) {folder : String}
    (hfolder : run.session.server.folders.contains folder = true) (created : Bool) :
    Ends (onSession (Mail.mutate (.moveTo folder) (MailSession.moveOrCopy uids folder)) >>= fun _ =>
        pause >>= fun _ => pure created) run
      (fun b run' => b = created ∧ Reaches way run (moved way.capabilities run.session.server.folders way.inbox
          folder (way.box run.session.server.folders) uids) 1 run' ∧
        run'.session.handle = run.session.handle)
      (fun _ => Stuck run (Partway run.session.server.folders way.inbox folder
        (way.box run.session.server.folders) uids)) := by
  have hmove := request_ends run (.mutationFailed (.moveTo folder))
    (moveOrCopy_ends hne hopen (find?_box h.hasInbox) hfolder)
  refine .bind hmove ?_ ?_
  · rintro _ _ ⟨e, t, rfl, -, hpartway, -, c, -, hfailing⟩
    exact ⟨by simp [hfailing], hpartway⟩
  · rintro _ _ ⟨t, rfl, hsame, hfolders, -⟩
    rw [h.capabilities] at hfolders
    exact .ok rfl ⟨rfl, h.step hsame hfolders (fun name => contains_moved ..) 1, hsame.handle⟩

/-- When all is prepared for a move, the folder is there. -/
theorem prepare_ends (h : Ready way run) (folder : String) :
    Ends (prepare way.inbox folder) run
      (fun missing run' => missing = creates run.session.server.folders (.move folder) ∧
        Reaches way run (provided run.session.server.folders folder) 0 run' ∧
        run'.session.handle = run.session.handle)
      (fun _ => Stuck run (· = run.session.server.folders)) := by
  refine .bind (knownFolders_ends h) (fun _ _ hstuck => hstuck) ?_
  rintro known run₁ ⟨rfl, h₁, hhandle₁⟩
  rw [contains_keySet, creates]
  by_cases hfolder : run.session.server.folders.contains folder = true
  · rw [provided, if_pos hfolder, hfolder]
    exact .ok rfl ⟨rfl, h₁, hhandle₁⟩
  · have hmissing := Bool.eq_false_iff.mpr hfolder
    have hmissing₁ : run₁.session.server.folders.contains folder = false := by rw [h₁.folders, hmissing]
    rw [provided, if_neg hfolder, hmissing]
    refine .bind (provide_ends h₁.toReady hmissing₁) ?_ ?_
    · exact fun _ _ hstuck => hstuck.after h₁ fun left hleft => hleft.trans h₁.folders
    · rintro _ run₂ ⟨h₂, hhandle₂⟩
      rw [h₁.folders] at h₂
      exact .ok rfl ⟨rfl, h₁.trans h₂, hhandle₂.trans hhandle₁⟩

/-- Messages are moved to a folder, which is created if there is none. -/
theorem moveTo_ends (h : Ready way run) (hreal : way.dryRun = false) (hne : uids.isEmpty = false)
    (hopen : run.session.handle.selected = some (way.inbox, false)) (folder : String) :
    Ends (moveTo way.inbox false uids folder) run
      (fun created run' => created = creates run.session.server.folders (.move folder) ∧
        Reaches way run (way.act uids run.session.server.folders (.move folder)) 1 run' ∧
        run'.session.handle = run.session.handle)
      (fun _ => Stuck run (way.Halfway uids run.session.server.folders (.move folder))) := by
  rw [moveTo_eq]
  refine .bind (prepare_ends h folder) (fun _ _ hstuck => ⟨hstuck.1, .inl hstuck.2⟩) ?_
  rintro created run₁ ⟨hcreated, h₁, hhandle₁⟩
  have hthere : run₁.session.server.folders.contains folder = true := by
    rw [h₁.folders]
    exact contains_provided.mpr (.inr rfl)
  have hact : way.act uids run.session.server.folders (.move folder) =
      moved way.capabilities (provided run.session.server.folders folder) way.inbox folder
        (way.box run.session.server.folders) uids := if_neg (by simp [hreal])
  have hmoved := moved_ends h₁.toReady hne (by rw [hhandle₁, hopen]) hthere created
  rw [h₁.folders, box_provided h.hasInbox, ← hact] at hmoved
  refine hmoved.mono ?_ ?_
  · rintro _ run₂ ⟨rfl, h₂, hhandle₂⟩
    exact ⟨hcreated, h₁.trans h₂, hhandle₂.trans hhandle₁⟩
  · exact fun _ _ hstuck => hstuck.after h₁ fun left hleft => .inr ⟨hreal, hleft⟩

/-- Messages are marked and removed. -/
theorem delete_ends (h : Ready way run) (hreal : way.dryRun = false) (hne : uids.isEmpty = false)
    (hopen : run.session.handle.selected = some (way.inbox, false)) :
    Ends (delete false uids) run
      (fun _ run' => Reaches way run (way.act uids run.session.server.folders .delete) 1 run' ∧
        run'.session.handle = run.session.handle)
      (fun _ => Stuck run (way.Halfway uids run.session.server.folders .delete)) := by
  have hact : way.act uids run.session.server.folders .delete =
      discarded way.capabilities run.session.server.folders way.inbox uids := if_neg (by simp [hreal])
  have hmark := request_ends run (.mutationFailed .delete) (deleteMessages_ends hne hopen)
  refine .bind hmark ?_ ?_
  · rintro _ _ ⟨e, t, rfl, -, hfolders, hfailing⟩
    exact ⟨by simp [hfailing], .inl hfolders⟩
  rintro _ _ ⟨t, rfl, hst, hmarked, -⟩
  have hopen' : t.handle.selected = some (way.inbox, false) := by rw [hst.handle, hopen]
  have hremove := request_ends { run with session := t } (.mutationFailed .expunge)
    (expunge_ends hne hopen' hmarked)
  refine .bind hremove ?_ ?_
  · rintro _ _ ⟨e, v, rfl, -, hfolders, hfailing⟩
    rw [hst.failing] at hfailing
    exact ⟨by simp [hfailing], .inr ⟨hreal, hfolders.trans hmarked⟩⟩
  · rintro _ _ ⟨v, rfl, htv, hfolders, -⟩
    rw [hst.handle, h.capabilities, ← hact] at hfolders
    refine .ok rfl ⟨h.step (hst.trans htv) hfolders (fun name => ?_) 1, htv.handle.trans hst.handle⟩
    rw [hact]
    exact SortedMap.contains_change ..

/-- Nothing is moved in a dry run, but whether the folder is missing is looked up. -/
theorem moveTo_dry_ends (h : Ready way run) (hdry : way.dryRun = true) (folder : String) :
    Ends (moveTo way.inbox true uids folder) run
      (fun created run' => created = creates run.session.server.folders (.move folder) ∧
        Reaches way run (way.act uids run.session.server.folders (.move folder)) 0 run' ∧
        run'.session.handle = run.session.handle)
      (fun _ => Stuck run (way.Halfway uids run.session.server.folders (.move folder))) := by
  refine .bind (knownFolders_ends h) ?_ ?_
  · exact fun _ _ hstuck => ⟨hstuck.1, .inl hstuck.2⟩
  · rintro known run₁ ⟨rfl, h₁, hhandle₁⟩
    rw [contains_keySet, Manner.act, if_pos hdry]
    exact .ok rfl ⟨rfl, h₁, hhandle₁⟩

/-- An action is done, or the store fails a command. -/
theorem act_ends (h : Ready way run) (hne : uids.isEmpty = false)
    (hopen : way.dryRun = false → run.session.handle.selected = some (way.inbox, false)) (action : Action) :
    Ends (Rules.act way.inbox way.dryRun uids action) run
      (fun created run' => created = creates run.session.server.folders action ∧
        Reaches way run (way.act uids run.session.server.folders action) (way.pauses 1) run' ∧
        run'.session.handle = run.session.handle)
      (fun _ => Stuck run (way.Halfway uids run.session.server.folders action)) := by
  unfold Manner.pauses
  rcases hdry : way.dryRun with _ | _
  · cases action with
    | move folder => exact moveTo_ends h hdry hne (hopen hdry) folder
    | delete =>
      refine .bind (delete_ends h hdry hne (hopen hdry)) (fun _ _ hstuck => hstuck) ?_
      exact fun _ _ hreaches => .ok rfl ⟨rfl, hreaches⟩
  · cases action with
    | move folder => exact moveTo_dry_ends h hdry folder
    | delete =>
      rw [Manner.act, if_pos hdry]
      exact .ok rfl ⟨rfl, h.step (.refl _) rfl (fun _ => rfl) 0, rfl⟩

theorem pauses_zero (way : Manner) : way.pauses 0 = 0 := by
  unfold Manner.pauses
  split <;> rfl

theorem pauses_add (way : Manner) (n m : Nat) : way.pauses (n + m) = way.pauses n + way.pauses m := by
  unfold Manner.pauses
  split <;> rfl

/-- The actions of a rule are done one after the other, up to where the store fails a command. -/
theorem actAll_ends (h : Ready way run) (hne : uids.isEmpty = false)
    (hopen : way.dryRun = false → run.session.handle.selected = some (way.inbox, false))
    (actions : List Action) :
    Ends (Rules.actAll way.inbox way.dryRun uids actions) run
      (fun reports run' => reports = way.reports uids run.session.server.folders actions ∧
        Reaches way run (way.actAll uids run.session.server.folders actions) (way.pauses actions.length) run')
      (fun _ => Stuck run fun left => way.HalfwayIn uids run.session.server.folders actions left) := by
  induction actions generalizing run with
  | nil =>
    rw [List.length_nil, pauses_zero]
    exact .ok rfl ⟨rfl, h.step (.refl _) rfl (fun _ => rfl) 0⟩
  | cons action rest ih =>
    refine .bind (act_ends h hne hopen action) ?_ ?_
    · exact fun _ _ hstuck => ⟨hstuck.1, .now hstuck.2⟩
    rintro created run₁ ⟨rfl, h₁, hhandle₁⟩
    have hrest := ih h₁.toReady (by rw [hhandle₁]; exact hopen)
    rw [h₁.folders] at hrest
    refine .bind hrest ?_ ?_
    · exact fun _ _ hstuck => hstuck.after h₁ fun _ hleft => .later hleft
    · rintro reports run₂ ⟨rfl, h₂⟩
      rw [List.length_cons, Nat.add_comm, pauses_add]
      exact .ok rfl ⟨rfl, h₁.trans h₂⟩

/-- A search leaves the folders, and finds what it describes unless the store fails a command. -/
theorem resolve_ends {s : Session} {folder : String} {f : Folder}
    (hf : s.server.folders.find? folder = some f) (spec : SearchSpec) (mode : MergeMode) :
    Ends (spec.resolve folder mode) s
      (fun found t => found = SearchSpec.described f spec mode ∧ Same (s.opening folder true) t ∧
        t.server.folders = s.server.folders)
      (fun _ t => t.server.folders = s.server.folders ∧ s.server.failing ≠ none) := by
  by_cases hneed : ∃ c, s.server.failing = some c ∧ spec.Needs f mode c
  · obtain ⟨c, hc, hneed⟩ := hneed
    obtain ⟨herror, hfolders⟩ := SearchSpec.resolve_error hf spec mode hc hneed
    exact .error (Prod.ext herror rfl) ⟨hfolders, by simp [hc]⟩
  · obtain ⟨log, hresolve⟩ := SearchSpec.resolve_ok hf spec mode fun c hc hn => hneed ⟨c, hc, hn⟩
    exact .ok hresolve ⟨rfl, ⟨rfl, rfl⟩, rfl⟩

/-- So does opening a folder. -/
theorem selectFolder_ends {s : Session} {folder : String} {f : Folder} (readOnly : Bool)
    (hf : s.server.folders.find? folder = some f) :
    Ends (selectFolder folder readOnly) s
      (fun _ t => Same (s.opening folder readOnly) t ∧ t.server.folders = s.server.folders)
      (fun _ t => t.server.folders = s.server.folders ∧ s.server.failing ≠ none) := by
  have hselect := selectFolder_run readOnly hf
  by_cases hc : s.server.failing = some (openingCommand folder readOnly).name
  · rw [verdict_error hc] at hselect
    exact .error hselect ⟨rfl, by simp [hc]⟩
  · rw [verdict_ok hc] at hselect
    exact .ok hselect ⟨⟨rfl, rfl⟩, rfl⟩

/-- A run that has opened a folder is where it was. -/
theorem Ready.opened (h : Ready way run) {t : Session} {name : String} {readOnly : Bool}
    (hsame : Same (run.session.opening name readOnly) t)
    (hfolders : t.server.folders = run.session.server.folders) :
    Reaches way run run.session.server.folders 0 { run with session := t } where
  capabilities := by rw [hsame.handle]; exact h.capabilities
  hasInbox := by rw [hfolders, h.hasInbox]
  informed := by rw [hfolders]; exact h.informed
  failing := hsame.failing
  folders := hfolders
  elapsed := rfl

/-- Searching for what a rule is about finds it. -/
theorem found_ends (h : Ready way run) (rule : Rule) :
    Ends (onSession (rule.spec.resolve way.inbox rule.merge)) run
      (fun uids run' => uids = way.found run.session.server.folders rule ∧
        Reaches way run run.session.server.folders 0 run')
      (fun _ => Stuck run (· = run.session.server.folders)) := by
  refine (onSession_ends (resolve_ends (find?_box h.hasInbox) rule.spec rule.merge)).mono ?_ ?_
  · rintro uids _ ⟨t, rfl, hfound, hsame, hfolders⟩
    exact ⟨hfound, h.opened hsame hfolders⟩
  · rintro _ _ ⟨t, rfl, hfolders, hfailing⟩
    exact ⟨hfailing, hfolders⟩

/-- Then the inbox is opened again. -/
theorem reopened_ends (h : Ready way run) :
    Ends (onSession (Mail.query way.inbox (MailSession.selectFolder way.inbox false))) run
      (fun _ run' => Reaches way run run.session.server.folders 0 run' ∧
        run'.session.handle.selected = some (way.inbox, false))
      (fun _ => Stuck run (· = run.session.server.folders)) := by
  have hselect := request_ends run (.queryFailed way.inbox) (selectFolder_ends false (find?_box h.hasInbox))
  refine hselect.mono ?_ ?_
  · rintro _ _ ⟨t, rfl, hsame, hfolders⟩
    exact ⟨h.opened hsame hfolders, by rw [hsame.handle]; rfl⟩
  · rintro _ _ ⟨e, t, rfl, hfolders, hfailing⟩
    exact ⟨hfailing, hfolders⟩

theorem length_reports (way : Manner) (uids : UidSet) (folders : SortedMap String Folder)
    (actions : List Action) : (way.reports uids folders actions).length = actions.length := by
  induction actions generalizing folders with
  | nil => rfl
  | cons action rest ih => rw [Manner.reports, List.length_cons, ih, List.length_cons]

/-- The actions of a rule are done and reported. -/
theorem acted_ends (h : Reaches way run run.session.server.folders 0 run₁) (hne : uids.isEmpty = false)
    (hopen : way.dryRun = false → run₁.session.handle.selected = some (way.inbox, false)) (rule : Rule) :
    Ends (Rules.actAll way.inbox way.dryRun uids rule.actions >>= fun actions =>
        pure (RuleReport.mk rule.name uids.size (.acted actions))) run₁
      (fun report run' =>
        report = ⟨rule.name, uids.size, .acted (way.reports uids run.session.server.folders rule.actions)⟩ ∧
        Reaches way run (way.actAll uids run.session.server.folders rule.actions)
          (way.pauses (Shelves.executed [report])) run')
      (fun _ => Stuck run fun left => way.HalfwayIn uids run.session.server.folders rule.actions left) := by
  have hall := actAll_ends h.toReady hne hopen rule.actions
  rw [h.folders] at hall
  refine .bind hall ?_ ?_
  · exact fun _ _ hstuck => hstuck.after h fun _ => id
  · rintro _ run₂ ⟨rfl, h₂⟩
    refine .ok rfl ⟨rfl, ?_⟩
    rw [Shelves.executed, Shelves.executed, Nat.add_zero, length_reports, ← Nat.zero_add (way.pauses _)]
    exact h.trans h₂

/-- A rule is applied, up to where the store fails a command. -/
theorem apply_ends (h : Ready way run) (rule : Rule) :
    Ends (Rules.apply way.inbox way.dryRun rule) run
      (fun report run' => report = way.report run.session.server.folders rule ∧
        Reaches way run (way.apply run.session.server.folders rule)
          (way.pauses (Shelves.executed [report])) run')
      (fun _ => Stuck run (way.HalfwayRule run.session.server.folders rule)) := by
  refine .bind (found_ends h rule) ?_ ?_
  · exact fun _ _ hstuck => ⟨hstuck.1, .inl hstuck.2⟩
  rintro uids run₁ ⟨hfound, h₁⟩
  unfold Manner.apply Manner.report Manner.HalfwayRule
  rw [← hfound]
  by_cases hempty : uids.isEmpty = true
  · rw [if_pos hempty, if_pos hempty, if_pos hempty]
    refine .ok rfl ⟨rfl, ?_⟩
    rwa [Shelves.executed, Shelves.executed, pauses_zero]
  rw [if_neg hempty, if_neg hempty, if_neg hempty]
  have hne := Bool.eq_false_iff.mpr hempty
  rcases hdry : way.dryRun with _ | _
  · refine .bind (reopened_ends h₁.toReady) ?_ ?_
    · exact fun _ _ hstuck => hstuck.after h₁ fun left hleft => .inl (hleft.trans h₁.folders)
    · rintro _ run₂ ⟨h₂, hopen⟩
      rw [h₁.folders] at h₂
      have hacted := acted_ends (h₁.trans h₂) hne (fun _ => hopen) rule
      rw [hdry] at hacted
      exact hacted.mono (fun _ _ hgood => hgood) fun _ _ hstuck => ⟨hstuck.1, .inr ⟨hne, hstuck.2⟩⟩
  · have hacted := acted_ends h₁ hne (fun hreal => absurd hreal (by simp [hdry])) rule
    rw [hdry] at hacted
    exact hacted.mono (fun _ _ hgood => hgood) fun _ _ hstuck => ⟨hstuck.1, .inr ⟨hne, hstuck.2⟩⟩

/-- Rules are applied in order, up to where the store fails a command. -/
theorem applyAll_ends (h : Ready way run) (rules : List Rule) :
    Ends (Rules.applyAll way.inbox way.dryRun rules) run
      (fun reports run' => reports = way.reportAll run.session.server.folders rules ∧
        Reaches way run (way.applyAll run.session.server.folders rules)
          (way.pauses (Shelves.executed reports)) run')
      (fun _ => Stuck run (way.HalfwayThrough run.session.server.folders rules)) := by
  induction rules generalizing run with
  | nil =>
    refine .ok rfl ⟨rfl, ?_⟩
    rw [Shelves.executed, pauses_zero]
    exact h.step (.refl _) rfl (fun _ => rfl) 0
  | cons rule rest ih =>
    refine .bind (apply_ends h rule) ?_ ?_
    · exact fun _ _ hstuck => ⟨hstuck.1, .now hstuck.2⟩
    rintro report run₁ ⟨hreport, h₁⟩
    have hrest := ih h₁.toReady
    rw [h₁.folders] at hrest
    refine .bind hrest ?_ ?_
    · exact fun _ _ hstuck => hstuck.after h₁ fun _ => .later
    · rintro reports run₂ ⟨hreports, h₂⟩
      refine .ok rfl ⟨by rw [hreport, hreports]; rfl, ?_⟩
      rw [Shelves.executed_cons, pauses_add]
      exact h₁.trans h₂

/-- Nothing is found in an inbox that is not there. -/
theorem found_missing (run : Run Session) {inbox : String}
    (hmissing : run.session.server.folders.contains inbox = false) (rule : Rule) :
    ∃ e, onSession (rule.spec.resolve inbox rule.merge) run = (.error (.queryFailed inbox e),
        { run with session := run.session.asked (openingCommand inbox true) }) ∧
      (run.session.server.failing = none → e = .rejected (.noMailbox inbox)) := by
  have hnone : run.session.server.folders.find? inbox = none := by
    rw [← Option.not_isSome_iff_eq_none]
    exact Bool.eq_false_iff.mp hmissing
  obtain ⟨e, hselect, hcause⟩ := selectFolder_missing true hnone
  have hresolve : rule.spec.resolve inbox rule.merge run.session = _ := bind_error (Mail.lift_error hselect)
  refine ⟨e, ?_, hcause⟩
  unfold onSession
  rw [hresolve]

/-- Rules cannot be applied to it. -/
theorem applyAll_missing (run : Run Session) (dryRun : Bool) {inbox : String}
    (hmissing : run.session.server.folders.contains inbox = false) (rule : Rule) (rest : List Rule) :
    ∃ e run', Rules.applyAll inbox dryRun (rule :: rest) run = (.error (.queryFailed inbox e), run') ∧
      run'.session.server.folders = run.session.server.folders ∧
      (run.session.server.failing = none → e = .rejected (.noMailbox inbox)) := by
  obtain ⟨e, hfound, hcause⟩ := found_missing run hmissing rule
  have happly : Rules.apply inbox dryRun rule run = _ := bind_error hfound
  exact ⟨e, _, bind_error happly, rfl, hcause⟩

end

/-! ### The run as a whole -/

theorem run_of_applyAll {inbox : String} {known : Option (SortedSet String)} {rules : List Rule}
    {dryRun : Bool} {s : Session} {result : Except Failure (List RuleReport)} {after : Run Session}
    (h : Rules.applyAll inbox dryRun rules ⟨s, known, 0⟩ = (result, after)) :
    Rules.run inbox known rules dryRun s = (result, after.elapsed, after.session) := by
  rw [Rules.run, h]

section
variable {s : Session} {inbox : String}

/-- A run arrives where its rules lead, or the store fails a command on the way. -/
theorem run_cases (hinbox : s.server.folders.contains inbox = true) (rules : List Rule) (dryRun : Bool) :
    (∃ elapsed t, Rules.run inbox none rules dryRun s =
        (.ok ((mannerOf s inbox dryRun).reportAll s.server.folders rules), elapsed, t) ∧
      t.server.folders = (mannerOf s inbox dryRun).applyAll s.server.folders rules) ∨
    (∃ e elapsed t, Rules.run inbox none rules dryRun s = (.error e, elapsed, t) ∧
      s.server.failing ≠ none ∧
      (mannerOf s inbox dryRun).HalfwayThrough s.server.folders rules t.server.folders) := by
  have hready : Ready (mannerOf s inbox dryRun) ⟨s, none, 0⟩ := ⟨rfl, hinbox, nofun⟩
  have hends : Ends (applyAll inbox dryRun rules) ⟨s, none, 0⟩ _ _ := applyAll_ends hready rules
  rcases hends.cases with ⟨reports, run, hok, hreports, hreaches⟩ | ⟨e, run, herror, hstuck⟩
  · refine .inl ⟨run.elapsed, run.session, ?_, hreaches.folders⟩
    rw [run_of_applyAll hok, hreports]
  · exact .inr ⟨e, run.elapsed, run.session, run_of_applyAll herror, hstuck.1, hstuck.2⟩

/-- Where there is no inbox, a run leaves the folders. -/
theorem run_missing (hmissing : s.server.folders.contains inbox = false) {known : Option (SortedSet String)}
    (rules : List Rule) (dryRun : Bool) :
    (Rules.run inbox known rules dryRun s).2.2.server.folders = s.server.folders := by
  cases rules with
  | nil => rfl
  | cons rule rest =>
    obtain ⟨e, run, hrun, hfolders, -⟩ := applyAll_missing ⟨s, known, 0⟩ dryRun hmissing rule rest
    unfold Rules.run
    rw [hrun]
    exact hfolders

/-- If it had anything to do, it fails. -/
theorem run_missing_fails (hmissing : s.server.folders.contains inbox = false)
    (hfailing : s.server.failing = none) {known : Option (SortedSet String)} (rules : List Rule)
    (dryRun : Bool) :
    (Rules.run inbox known rules dryRun s).1 =
      if rules = [] then .ok [] else .error (.queryFailed inbox (.rejected (.noMailbox inbox))) := by
  cases rules with
  | nil => rfl
  | cons rule rest =>
    obtain ⟨e, run, hrun, -, hcause⟩ := applyAll_missing ⟨s, known, 0⟩ dryRun hmissing rule rest
    unfold Rules.run
    rw [hrun, hcause hfailing]
    rfl

end

end Mailroom.Rules
