import Mathlib.Data.List.Nodup
import Mailroom.Proofs.Mailstore.Asked
import Mailroom.Proofs.Mailstore.Orders
import Mailroom.Proofs.Rules.Departures
import Mailroom.Proofs.Rules.Settled

/-! What a run knows of the folders.

A run keeps the names of the folders it knows of. Whenever a move comes up, it knows exactly which folders there
are, the one that messages are moved to among them (`departures_informed`). So a folder is created only if there is none, and only
once; and it makes no difference whether a run has been told the folders or lists them itself
(`run_stays_informed`). -/
namespace Mailroom.Rules
open Mailstore Mailstore.Session

/-! ### What a run knows when a move comes up -/

section
variable {way : Manner} {run : Run Session} {uids : UidSet} {α : Type}

/-- A run that knows exactly which folders there are, and can move messages to the folder. -/
structure Departure.Informed (d : Departure Session) : Prop where
  knows : d.run.folders = some d.run.session.server.folders.keySet
  there : d.folder ∈ d.run.session.server.folders.keySet
  moves : (MailSession.moveOrCopy d.uids d.folder d.run.session).1 = .ok ()

/-- What comes up after an operation that ends well. -/
theorem upAfter_informed {op : Mail (Run Session) α} {next : α → Run Session → List (Departure Session)}
    {good : α → Run Session → Prop} {bad : Failure → Run Session → Prop} (h : Ends op run good bad)
    (hnext : ∀ a run', good a run' → ∀ d ∈ next a run', d.Informed) : ∀ d ∈ upAfter op next run, d.Informed := by
  unfold upAfter
  rcases h.cases with ⟨a, run', hrun, hgood⟩ | ⟨e, run', hrun, -⟩
  · rw [hrun]
    exact hnext a run' hgood
  · rw [hrun]
    nofun

theorem knownFolders_remembers (inbox : String) (run : Run Session) :
    Ends (knownFolders inbox) run (fun known run' => run'.folders = some known) fun _ _ => True := by
  refine .of_eq (bind_ok (get_run run)) ?_
  rcases hknown : run.folders with _ | known
  · exact .bind (.trivially _ _) (fun _ _ _ => trivial) fun _ _ _ => .ok rfl rfl
  · exact .ok rfl hknown

theorem provide_remembers (folder : String) (run : Run Session) :
    Ends (provide folder) run (fun _ run' => run'.folders = run.folders.map (·.insert folder))
      fun _ _ => True := by
  have hcreate : Ends (onSession (Mail.mutate (.create folder) (MailSession.createFolder folder))) run
      (fun _ run' => run'.folders = run.folders) fun _ _ => True :=
    (onSession_ends (.trivially _ _)).mono (fun _ _ ⟨_, hrun, _⟩ => by rw [hrun]) fun _ _ _ => trivial
  exact .bind hcreate (fun _ _ _ => trivial) fun _ run' hrun => .ok rfl (by rw [← hrun])

/-- When all is prepared for a move, the run knows folders. -/
theorem prepare_remembers (inbox folder : String) (run : Run Session) :
    Ends (prepare inbox folder) run (fun _ run' => ∃ known, run'.folders = some known) fun _ _ => True := by
  refine .bind (knownFolders_remembers inbox run) (fun _ _ _ => trivial) fun known run₁ hknown => ?_
  rcases hmissing : !known.contains folder with _ | _
  · exact .ok rfl ⟨known, hknown⟩
  · refine .bind (provide_remembers folder run₁) (fun _ _ _ => trivial) fun _ run₂ hfolders => ?_
    exact .ok rfl ⟨known.insert folder, by rw [hfolders, hknown]; rfl⟩

variable (hfailing : run.session.server.failing = none)
include hfailing

theorem departuresOf_informed (h : Ready way run) (hne : uids.isEmpty = false)
    (hopen : run.session.handle.selected = some (way.inbox, false)) (action : Action) :
    ∀ d ∈ departuresOf way.inbox uids action run, d.Informed := by
  cases action with
  | delete => nofun
  | move folder =>
    refine upAfter_informed ((prepare_ends h folder).and (prepare_remembers way.inbox folder run)) ?_
    intro _ run' ⟨⟨_, h', hhandle⟩, known, hknown⟩ d hd
    obtain rfl := List.mem_singleton.mp hd
    have hthere : run'.session.server.folders.contains folder = true := by
      rw [h'.folders]
      exact contains_provided.mpr (.inr rfl)
    rw [← hhandle] at hopen
    have hmove := moveOrCopy_ends hne hopen (find?_box h'.hasInbox) hthere
    obtain ⟨_, t, hmoved, -⟩ := hmove.exists_ok fun _ _ hbad => by
      obtain ⟨-, -, -, c, -, hc⟩ := hbad
      rw [h'.failing, hfailing] at hc
      cases hc
    have hknows : run'.folders = some run'.session.server.folders.keySet := by rw [hknown, h'.informed known hknown]
    exact ⟨hknows, SortedSet.contains_iff.mp (by rwa [contains_keySet]), by rw [hmoved]⟩

theorem departuresOfAll_informed (h : Ready way run) (hreal : way.dryRun = false) (hne : uids.isEmpty = false)
    (hopen : run.session.handle.selected = some (way.inbox, false)) (actions : List Action) :
    ∀ d ∈ departuresOfAll way.inbox uids actions run, d.Informed := by
  induction actions generalizing run with
  | nil => nofun
  | cons action rest ih =>
    have hact := act_ends h hne (fun _ => hopen) action
    rw [hreal] at hact
    refine List.forall_mem_append.mpr ⟨departuresOf_informed hfailing h hne hopen action, ?_⟩
    refine upAfter_informed hact fun _ run₁ ⟨_, h₁, hhandle₁⟩ => ?_
    exact ih (by rw [h₁.failing, hfailing]) h₁.toReady (by rw [hhandle₁, hopen])

theorem departuresOfRule_informed (h : Ready way run) (hreal : way.dryRun = false) (rule : Rule) :
    ∀ d ∈ departuresOfRule way.inbox rule run, d.Informed := by
  refine upAfter_informed (found_ends h rule) fun uids run₁ ⟨_, h₁⟩ => ?_
  rcases hne : uids.isEmpty with _ | _
  · refine upAfter_informed (reopened_ends h₁.toReady) fun _ run₂ ⟨h₂, hopen⟩ => ?_
    have hfailing₂ : run₂.session.server.failing = none := by rw [h₂.failing, h₁.failing, hfailing]
    exact departuresOfAll_informed hfailing₂ h₂.toReady hreal hne hopen rule.actions
  · nofun

/-- Whenever a move comes up, the run knows exactly which folders there are, and the move succeeds. -/
theorem departures_informed (h : Ready way run) (hreal : way.dryRun = false) (rules : List Rule) :
    ∀ d ∈ departures way.inbox rules run, d.Informed := by
  induction rules generalizing run with
  | nil => nofun
  | cons rule rest ih =>
    have happly := apply_ends h rule
    rw [hreal] at happly
    refine List.forall_mem_append.mpr ⟨departuresOfRule_informed hfailing h hreal rule, ?_⟩
    exact upAfter_informed happly fun _ run₁ ⟨_, h₁⟩ => ih (by rw [h₁.failing, hfailing]) h₁.toReady

end

/-! ### What is on record of a run -/

/-- Whether a record is one of messages that are moved or copied. -/
def isMove (line : String) : Bool := Server.begins "UID MOVE" line || Server.begins "UID COPY" line

/-- Between the two sessions folders of these names have been created, which were not there, once each, and
nothing else has happened to the names of the folders. Of creations and moves nothing else is on record. -/
structure Traces (s t : Session) (created moves : List String) : Prop where
  recorded : ∃ lines, t.server.commands = s.server.commands ++ lines ∧
    lines.filter (Server.begins "CREATE") = created.map (fun folder => Server.recorded (.create folder)) ∧
    lines.filter isMove = moves
  folders : ∀ name, name ∈ t.server.folders.keySet ↔ name ∈ s.server.folders.keySet ∨ name ∈ created
  fresh : ∀ name ∈ created, name ∉ s.server.folders.keySet
  once : created.Nodup

section
variable {s t u : Session} {created created' moves moves' : List String}

theorem Traces.refl (s : Session) : Traces s s [] [] where
  recorded := ⟨[], (List.append_nil _).symm, rfl, rfl⟩
  folders name := by simp
  fresh := nofun
  once := .nil

theorem Traces.trans (h : Traces s t created moves) (h' : Traces t u created' moves') :
    Traces s u (created ++ created') (moves ++ moves') where
  recorded := by
    obtain ⟨first, hfirst, hcreated, hmoves⟩ := h.recorded
    obtain ⟨second, hsecond, hcreated', hmoves'⟩ := h'.recorded
    refine ⟨first ++ second, by rw [hsecond, hfirst, List.append_assoc], ?_, ?_⟩
    · rw [List.filter_append, hcreated, hcreated', List.map_append]
    · rw [List.filter_append, hmoves, hmoves']
  folders name := by rw [h'.folders, h.folders, List.mem_append, or_assoc]
  fresh name hname := (List.mem_append.mp hname).elim (h.fresh name) fun hlater hthere =>
    h'.fresh name hlater ((h.folders name).mpr (.inl hthere))
  once := List.Nodup.append h.once h'.once fun name hname hlater =>
    h'.fresh name hlater ((h.folders name).mpr (.inr hname))

theorem isMove_recorded (command : Command) :
    isMove (Server.recorded command) = decide (command.name = "UID MOVE" ∨ command.name = "UID COPY") := by
  rw [isMove, Server.begins_recorded command _ (by decide), Server.begins_recorded command _ (by decide),
    Bool.decide_or]

theorem mem_keySet_of_sameNames (h : s.SameNames t) (name : String) :
    name ∈ t.server.folders.keySet ↔ name ∈ s.server.folders.keySet := by
  show name ∈ t.server.folders.keys ↔ name ∈ s.server.folders.keys
  rw [h]

/-- Calls that neither create nor move leave no trace. -/
theorem Traces.quiet {names : List String} (hasked : Asked names s t) (hnames : s.SameNames t)
    (hquiet : ∀ name ∈ names, name ∉ ["CREATE", "UID MOVE", "UID COPY"]) : Traces s t [] [] where
  recorded := by
    obtain ⟨commands, hcommands, hall⟩ := hasked
    have hname : ∀ c ∈ commands, c.name ∉ ["CREATE", "UID MOVE", "UID COPY"] := fun c hc => hquiet _ (hall c hc)
    refine ⟨commands.map Server.recorded, hcommands, ?_, ?_⟩
    · rw [List.map_nil, List.filter_eq_nil_iff, List.forall_mem_map]
      intro c hc
      rw [Server.begins_recorded c _ (by decide), decide_eq_true_iff]
      exact fun h => hname c hc (by simp [h])
    · rw [List.filter_eq_nil_iff, List.forall_mem_map]
      intro c hc
      rw [isMove_recorded, decide_eq_true_iff]
      rintro (h | h)
      · exact hname c hc (by simp [h])
      · exact hname c hc (by simp [h])
  folders name := by rw [mem_keySet_of_sameNames hnames, List.mem_nil_iff, or_false]
  fresh := nofun
  once := .nil

/-- A command that moves or copies is on record. -/
theorem Traces.move {command : Command}
    (hasked : t.server.commands = s.server.commands ++ [Server.recorded command])
    (hnames : s.SameNames t) (hmove : command.name = "UID MOVE" ∨ command.name = "UID COPY") :
    Traces s t [] [Server.recorded command] where
  recorded := by
    refine ⟨[Server.recorded command], hasked, ?_, ?_⟩
    · rcases hmove with h | h <;> simp [Server.begins_recorded command "CREATE" (by decide), h]
    · simp [isMove_recorded, hmove]
  folders name := by rw [mem_keySet_of_sameNames hnames, List.mem_nil_iff, or_false]
  fresh := nofun
  once := .nil

/-- A folder is created. -/
theorem Traces.creation {folder : String} (hnew : s.server.folders.contains folder = false) :
    Traces s ((s.asked (.create folder)).withFolders (s.server.folders.insert folder {})) [folder] [] where
  recorded := by
    refine ⟨[Server.recorded (.create folder)], List.reverse_cons, ?_, ?_⟩
    · simp [Server.begins_recorded (.create folder) "CREATE" (by decide), Command.name]
    · simp [isMove_recorded, Command.name]
  folders name := by
    show name ∈ (s.server.folders.insert folder {}).keySet ↔ _
    rw [SortedMap.keySet_insert, SortedSet.mem_insert, List.mem_singleton, or_comm]
  fresh name hname := by
    rw [List.mem_singleton.mp hname, ← SortedSet.contains_iff, contains_keySet, hnew]
    exact Bool.false_ne_true
  once := List.nodup_singleton folder

end

/-! ### The record of a run -/

/-- The sessions of the two are related by a record of nothing that matters here. -/
def Quiet (s t : Session) : Prop := Traces s t [] []

instance quiet_isPreorder : IsPreorder Session Quiet where
  refl := Traces.refl
  trans _ _ _ h h' := h.trans h'

theorem perform_quiet (call : SessionCall) (hmanages : call.managesFolders = false)
    (hquiet : ∀ name ∈ call.commandNames, name ∉ ["CREATE", "UID MOVE", "UID COPY"]) :
    Within Quiet (call.perform : SessionM Session Unit) := fun s =>
  .quiet (perform_asks call s) (keeps_names call hmanages s) hquiet

theorem selectFolder_quiet (folder : String) (readOnly : Bool) : Within Quiet (selectFolder folder readOnly) :=
  within_of_outcome (perform_quiet (.selectFolder folder readOnly) rfl (of_decide_eq_true rfl))

theorem searches_quiet : SearchesWithin Session Quiet where
  open_ folder := selectFolder_quiet folder true
  search keys := within_of_outcome (perform_quiet (.search keys) rfl (of_decide_eq_true rfl))
  fetch uids attributes := within_of_outcome (perform_quiet (.fetch uids attributes) rfl (of_decide_eq_true rfl))

theorem listFolders_quiet : Within Quiet listFolders :=
  within_of_outcome (perform_quiet .listFolders rfl (of_decide_eq_true rfl))

/-- A folder that is created is on record, and messages that are moved are. -/
theorem createFolder_traces {folder : String} {s t : Session}
    (h : createFolder folder s = (.ok (), t)) : Traces s t [folder] [] := by
  rcases perform_ends s (.createFolder folder) with ⟨t', hgranted⟩ | ⟨e, t', hrun, -⟩
  · have hrun := (perform_granted hgranted).symm.trans h
    cases hrun
    cases hgranted with
    | idle hidle => cases hidle
    | created _ hnew => exact .creation hnew
  · cases hrun.symm.trans h

theorem deleteMessages_quiet (uids : UidSet) : Within Quiet (deleteMessages uids) :=
  perform_quiet (.deleteMessages uids) rfl (of_decide_eq_true rfl)

theorem expunge_quiet (uids : UidSet) : Within Quiet (expunge uids) :=
  perform_quiet (.expunge uids) rfl (of_decide_eq_true rfl)

theorem moveMessages_traces {uids : UidSet} {folder : String} {s t : Session} (hne : uids.isEmpty = false)
    (h : moveMessages uids folder s = (.ok (), t)) :
    Traces s t [] [Server.recorded (.move uids folder)] := by
  rcases perform_ends s (.moveMessages uids folder) with ⟨t', hgranted⟩ | ⟨e, t', hrun, -⟩
  · cases (perform_granted hgranted).symm.trans h
    have hnames := hgranted.sameNames rfl
    cases hgranted with
    | idle hidle => exact absurd (hne.symm.trans hidle) Bool.false_ne_true
    | moved => exact .move List.reverse_cons hnames (.inl rfl)
  · cases hrun.symm.trans h

theorem copyMessages_traces {uids : UidSet} {folder : String} {s t : Session} (hne : uids.isEmpty = false)
    (h : copyMessages uids folder s = (.ok (), t)) :
    Traces s t [] [Server.recorded (.copy uids folder)] := by
  rcases perform_ends s (.copyMessages uids folder) with ⟨t', hgranted⟩ | ⟨e, t', hrun, -⟩
  · cases (perform_granted hgranted).symm.trans h
    have hnames := hgranted.sameNames rfl
    cases hgranted with
    | idle hidle => exact absurd (hne.symm.trans hidle) Bool.false_ne_true
    | copied => exact .move List.reverse_cons hnames (.inr rfl)
  · cases hrun.symm.trans h

theorem moveOrCopy_traces {uids : UidSet} {folder : String} {s t : Session} (hne : uids.isEmpty = false)
    (h : MailSession.moveOrCopy uids folder s = (.ok (), t)) :
    Traces s t [] [Server.recorded (if s.handle.capabilities.contains .move then .move uids folder
      else .copy uids folder)] := by
  have hcapabilities : MailSession.capabilities s = s.handle.capabilities := rfl
  rw [MailSession.moveOrCopy, bind_ok (get_run s), hcapabilities] at h
  by_cases hmoves : s.handle.capabilities.contains .move = true
  · rw [if_pos hmoves] at h ⊢
    exact moveMessages_traces hne h
  · rw [if_neg hmoves] at h ⊢
    obtain ⟨_, t₁, hcopy, hrest⟩ := bind_eq_ok.mp h
    have hremoved := (deleteMessages_quiet uids).bind (fun _ => expunge_quiet uids) t₁
    have htraces := (copyMessages_traces hne hcopy).trans hremoved
    rwa [show (deleteMessages uids >>= fun _ => expunge uids) t₁ = _ from hrest] at htraces

/-- Unless it fails to change something, an operation leaves a record of the moves that come up in it. -/
def Follows {α : Type} (op : Mail (Run Session) α) (deps : Run Session → List (Departure Session)) : Prop :=
  ∀ run, (∀ m cause, (op run).1 ≠ .error (.mutationFailed m cause)) →
    ∃ created, Traces run.session (op run).2.session created
      ((deps run).map fun d => Server.recorded d.command)

namespace Follows
variable {α β : Type} {op : Mail (Run Session) α} {next : α → Mail (Run Session) β}
  {deps : Run Session → List (Departure Session)} {later : α → Run Session → List (Departure Session)}

theorem quiet (h : Within (Along Quiet) op) : Follows op fun _ => [] := fun run _ => ⟨[], h run⟩

theorem bind (h : Follows op deps) (hnext : ∀ a, Follows (next a) (later a)) :
    Follows (op >>= next) fun run => deps run ++ upAfter op later run := by
  intro run hrun
  have hop := h run
  show ∃ created, Traces _ _ created ((deps run ++ upAfter op later run).map _)
  unfold upAfter
  rw [bind_run] at hrun ⊢
  rcases hfirst : op run with ⟨e | a, run'⟩ <;> rw [hfirst] at hop hrun
  · obtain ⟨created, htraces⟩ := hop fun m cause he => hrun m cause (by cases he; rfl)
    exact ⟨created, by rwa [List.append_nil]⟩
  · obtain ⟨created, htraces⟩ := hop nofun
    obtain ⟨created', htraces'⟩ := hnext a run' hrun
    exact ⟨created ++ created', by rw [List.map_append]; exact htraces.trans htraces'⟩

/-- Nothing comes up before. -/
theorem after (h : Follows op fun _ => []) (hnext : ∀ a, Follows (next a) (later a)) :
    Follows (op >>= next) (upAfter op later) := h.bind hnext

/-- Nothing comes up later. -/
theorem before (h : Follows op deps) (hnext : ∀ a, Follows (next a) fun _ => []) :
    Follows (op >>= next) deps := by
  have hnone : ∀ run, upAfter op (fun _ _ => []) run = ([] : List (Departure Session)) := by
    intro run
    unfold upAfter
    split <;> rfl
  have hboth := h.bind hnext
  simp only [hnone, List.append_nil] at hboth
  exact hboth

theorem pure (a : α) : Follows (Pure.pure a) fun _ => [] := .quiet (Within.pure a)

end Follows

section
variable (inbox : String) (uids : UidSet)

theorem knownFolders_follows : Follows (knownFolders inbox) fun _ => [] :=
  .quiet fun run => (knownFolders_within listFolders_quiet inbox run).session

/-- Once a folder is provided, it is on record that it was created. -/
theorem provide_follows (folder : String) : Follows (provide folder) fun _ => [] := by
  refine .before (fun run hrun => ?_) fun _ => .quiet fun run => Traces.refl run.session
  unfold onSession Mail.mutate at hrun ⊢
  rw [Mail.lift_run] at hrun ⊢
  rcases hcreate : (MailSession.createFolder folder : SessionM Session Unit) run.session with ⟨e | _, t⟩
  · rw [hcreate] at hrun
    exact absurd rfl (hrun (.create folder) e)
  · exact ⟨[folder], createFolder_traces hcreate⟩

theorem prepare_follows (folder : String) : Follows (prepare inbox folder) fun _ => [] := by
  refine (knownFolders_follows inbox).before fun known => ?_
  rcases hmissing : !known.contains folder with _ | _
  · exact .pure false
  · exact (provide_follows folder).before fun _ => .pure true

theorem moveTo_follows (hne : uids.isEmpty = false) (folder : String) :
    Follows (moveTo inbox false uids folder) (departuresOf inbox uids (.move folder)) := by
  rw [moveTo_eq]
  refine .after (prepare_follows inbox folder) fun missing => ?_
  refine .before (fun run hrun => ?_) fun _ => .quiet fun run => Traces.refl run.session
  unfold onSession Mail.mutate at hrun ⊢
  rw [Mail.lift_run] at hrun ⊢
  rcases hmove : (MailSession.moveOrCopy uids folder : SessionM Session Unit) run.session with ⟨e | _, t⟩
  · rw [hmove] at hrun
    exact absurd rfl (hrun (.moveTo folder) e)
  · exact ⟨[], moveOrCopy_traces hne hmove⟩

theorem act_follows (hne : uids.isEmpty = false) (action : Action) :
    Follows (act inbox false uids action) (departuresOf inbox uids action) := by
  cases action with
  | move folder => exact moveTo_follows inbox uids hne folder
  | delete =>
    refine .quiet (.bind ?_ fun _ => .pure false)
    refine (onSession_along (deleteMessages_quiet uids).lift).bind fun _ => ?_
    exact (onSession_along (expunge_quiet uids).lift).bind fun _ => pause_along

theorem actAll_follows (hne : uids.isEmpty = false) (actions : List Action) :
    Follows (actAll inbox false uids actions) (departuresOfAll inbox uids actions) := by
  induction actions with
  | nil => exact .pure []
  | cons action rest ih =>
    exact (act_follows inbox uids hne action).bind fun _ => ih.before fun _ => .pure _

theorem apply_follows (rule : Rule) : Follows (apply inbox false rule) (departuresOfRule inbox rule) := by
  have hresolve := onSession_along (rule.spec.resolve_within searches_quiet inbox rule.merge)
  refine .after (.quiet hresolve) fun matched => ?_
  rcases hempty : matched.isEmpty with _ | _
  · refine .after (.quiet (onSession_along (selectFolder_quiet inbox false).lift)) fun _ => ?_
    exact (actAll_follows inbox matched hempty rule.actions).before fun _ => .pure _
  · exact .pure _

/-- Unless it fails to change something, a run leaves a record of the moves that come up in it, and of each
folder that was not there and has been created. -/
theorem applyAll_follows (rules : List Rule) : Follows (applyAll inbox false rules) (departures inbox rules) := by
  induction rules with
  | nil => exact .pure []
  | cons rule rest ih => exact (apply_follows inbox rule).bind fun _ => ih.before fun _ => .pure _

end

/-! ### The run as a whole -/

section
variable {s : Session} {inbox : String} {known : Option (SortedSet String)}

/-- In an inbox that is not there nothing comes up. -/
theorem departures_missing {run : Run Session} (hmissing : run.session.server.folders.contains inbox = false)
    (rules : List Rule) : departures inbox rules run = [] := by
  cases rules with
  | nil => rfl
  | cons rule rest =>
    obtain ⟨e, hfound, -⟩ := found_missing run hmissing rule
    have happly : apply inbox false rule run = _ := bind_error hfound
    simp [departures, departuresOfRule, upAfter, hfound, happly]

variable (hknown : known = none ∨ known = some s.server.folders.keySet)
include hknown

theorem ready_of_known (hinbox : s.server.folders.contains inbox = true) (dryRun : Bool) :
    Ready (mannerOf s inbox dryRun) ⟨s, known, 0⟩ := by
  refine ⟨rfl, hinbox, fun names hnames => ?_⟩
  rcases hknown with rfl | rfl
  · cases hnames
  · exact (Option.some.inj hnames).symm

variable (hfailing : s.server.failing = none)
include hfailing

/-- A run that knows the folders comes to what one comes to that knows none yet. -/
theorem run_known (hinbox : s.server.folders.contains inbox = true) (rules : List Rule) (dryRun : Bool) :
    (Rules.run inbox known rules dryRun s).1 =
        .ok ((mannerOf s inbox dryRun).reportAll s.server.folders rules) ∧
      (Rules.run inbox known rules dryRun s).2.2.server.folders =
        (mannerOf s inbox dryRun).applyAll s.server.folders rules := by
  obtain ⟨_, after, hall, rfl, hreaches⟩ :=
    (applyAll_ends (ready_of_known hknown hinbox dryRun) rules).exists_ok fun _ _ hstuck => hstuck.1 hfailing
  have hrun : Rules.run inbox known rules dryRun s = _ := run_of_applyAll hall
  rw [hrun]
  exact ⟨rfl, hreaches.folders⟩

/-- It fails only if there is no inbox. -/
theorem run_error {rules : List Rule} {dryRun : Bool} {e : Failure}
    (he : (Rules.run inbox known rules dryRun s).1 = .error e) :
    e = .queryFailed inbox (.rejected (.noMailbox inbox)) := by
  rcases hinbox : s.server.folders.contains inbox with _ | _
  · rw [run_missing_fails hinbox hfailing] at he
    split at he <;> cases he
    rfl
  · rw [(run_known hknown hfailing hinbox rules dryRun).1] at he
    cases he

theorem run_departures_informed (inbox : String) (rules : List Rule) :
    ∀ d ∈ departures inbox rules ⟨s, known, 0⟩, d.Informed := by
  rcases hinbox : s.server.folders.contains inbox with _ | _
  · rw [departures_missing hinbox]
    nofun
  · exact departures_informed hfailing (ready_of_known hknown hinbox false) rfl rules

theorem run_traces (inbox : String) (rules : List Rule) (dryRun : Bool) :
    ∃ created, Traces s (Rules.run inbox known rules dryRun s).2.2 created
      (if dryRun then [] else (departures inbox rules ⟨s, known, 0⟩).map fun d => Server.recorded d.command) := by
  cases dryRun with
  | true => exact ⟨[], (applyAll_dry_within searches_quiet listFolders_quiet inbox rules ⟨s, known, 0⟩).session⟩
  | false =>
    refine applyAll_follows inbox rules ⟨s, known, 0⟩ fun m cause hmutation => ?_
    cases run_error hknown hfailing hmutation

end

/-- On a store that fails nothing, a run of rules that is told the folders comes to the same reports and the
same folders as one that lists them itself. In both, whenever a move comes up, the run knows exactly which
folders there are, and the move succeeds; a folder is created only if it was not there, and once; and nothing
fails unless there is no inbox. -/
theorem run_stays_informed (s : Session) (inbox : String) (rules : List Rule) (dryRun : Bool)
    (hfailing : s.server.failing = none) :
    ((Rules.run inbox (some s.server.folders.keySet) rules dryRun s).1 =
        (Rules.run inbox none rules dryRun s).1 ∧
      (Rules.run inbox (some s.server.folders.keySet) rules dryRun s).2.2.server.folders =
        (Rules.run inbox none rules dryRun s).2.2.server.folders) ∧
    ∀ known, known = none ∨ known = some s.server.folders.keySet →
      (∀ d ∈ departures inbox rules ⟨s, known, 0⟩, d.Informed) ∧
      (∃ created, Traces s (Rules.run inbox known rules dryRun s).2.2 created
        (if dryRun then [] else (departures inbox rules ⟨s, known, 0⟩).map fun d => Server.recorded d.command)) ∧
      ∀ e, (Rules.run inbox known rules dryRun s).1 = .error e →
        e = .queryFailed inbox (.rejected (.noMailbox inbox)) := by
  refine ⟨?_, fun known hknown => ⟨run_departures_informed hknown hfailing inbox rules,
    run_traces hknown hfailing inbox rules dryRun, fun e => run_error hknown hfailing⟩⟩
  rcases hinbox : s.server.folders.contains inbox with _ | _
  · rw [run_missing_fails hinbox hfailing, run_missing_fails hinbox hfailing, run_missing hinbox,
      run_missing hinbox]
    exact ⟨rfl, rfl⟩
  · obtain ⟨htold, htoldFolders⟩ := run_known (.inr rfl) hfailing hinbox rules dryRun
    obtain ⟨hnone, hnoneFolders⟩ := run_known (.inl rfl) hfailing hinbox rules dryRun
    exact ⟨htold.trans hnone.symm, htoldFolders.trans hnoneFolders.symm⟩

/-- Two rules that move to the same folder. -/
def sharing : List Rule :=
  [⟨"ann", { predicates := [.senders ["ann@"]] }, .and, [.move "New"]⟩,
    ⟨"others", {}, .and, [.move "New"]⟩]

/-- Both moves come up with the folder there, which is created once. -/
theorem run_stays_informed_sharing :
    (∀ d ∈ departures "INBOX" sharing ⟨SearchSpec.annAndBob [], none, 0⟩, d.Informed) ∧
      (departures "INBOX" sharing ⟨SearchSpec.annAndBob [], none, 0⟩).map (fun d => Server.recorded d.command) =
        ["UID COPY 1 New", "UID COPY 2 New"] ∧
      (Rules.run "INBOX" none sharing false (SearchSpec.annAndBob [])).2.2.server.commands.filter
        (Server.begins "CREATE") = ["CREATE New"] := by
  obtain ⟨-, hknown⟩ := run_stays_informed (SearchSpec.annAndBob []) "INBOX" sharing false rfl
  obtain ⟨hinformed, -, -⟩ := hknown none (.inl rfl)
  exact ⟨hinformed, by decide +kernel, by decide +kernel⟩

end Mailroom.Rules
