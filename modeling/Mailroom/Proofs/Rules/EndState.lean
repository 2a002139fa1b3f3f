import Mailroom.Proofs.Mailstore.Moves
import Mailroom.Proofs.Rules.Progress

/-! The folders that a run of rules leaves.

If a store does what it is asked without touching other messages (`Manner.Exact`), and there are
numbers left, what actions and rules do to its folders is what they do on paper (`act_shelves`,
`apply_shelves`), and so are their reports. `Stands` says that a run has come to folders that are
written down in a certain way; on a store that fails nothing rules take it to where they lead
(`applyAll_run`), and so does the run (`run_reference`). -/
namespace Mailroom.Rules
open Mailstore Mailstore.Session Mailstore.Shelves Mailstore.Folder

/-! ### Actions on paper -/

/-- The store does the action without touching other messages. -/
def Manner.Exact (way : Manner) : Action → Prop
  | .move _ => Capability.move ∈ way.capabilities ∨ Capability.uidPlus ∈ way.capabilities
  | .delete => Capability.uidPlus ∈ way.capabilities

section
variable {way : Manner} {folders : SortedMap String Folder} {uids : UidSet}

theorem numbered_provided (hn : Numbered folders) (folder : String) : Numbered (provided folders folder) := by
  unfold provided
  split
  · exact hn
  · exact numbered_create hn folder

theorem shelvesOf_provided (folders : SortedMap String Folder) (folder : String) :
    shelvesOf (provided folders folder) = (shelvesOf folders).provide folder := by
  unfold provided
  split
  · next h => rw [provide_of_isSome (by rw [isSome_shelvesOf, h])]
  · next h => exact shelvesOf_create (Bool.eq_false_iff.mpr h)

theorem move_provided (h : folders.contains way.inbox = true) (folder : String) (numbers : List Nat) :
    (shelvesOf (provided folders folder)).move way.inbox folder numbers =
      (shelvesOf folders).move way.inbox folder numbers := by
  rw [shelvesOf_provided, move_provide (by rw [isSome_shelvesOf, h])]

theorem shelvesOf_box (h : folders.contains way.inbox = true) :
    shelvesOf folders way.inbox = some (way.box folders).shelf := by
  rw [shelvesOf_apply, find?_box h]
  rfl

/-- What is known about the messages that actions are about: they came before any that are put into
the inbox from now on. -/
def Manner.Below (way : Manner) (uids : UidSet) (folders : SortedMap String Folder) : Prop :=
  ∀ u ∈ uids, u.value < (way.box folders).shelf.next

/-- There are numbers left for the messages that the action puts in. -/
def Manner.Fits (way : Manner) (uids : UidSet) (folders : SortedMap String Folder) : Action → Prop
  | .move folder => Mailstore.Fits (provided folders folder) way.inbox folder uids
  | .delete => True

theorem Manner.fits_of_room (hinbox : folders.contains way.inbox = true) {action : Action}
    (hroom : Room ((shelvesOf folders).act way.inbox (numbersOf uids) action)) : way.Fits uids folders action := by
  cases action with
  | move folder =>
    have hthere : (provided folders folder).contains folder = true := contains_provided.mpr (.inr rfl)
    exact Mailstore.fits_of_room (find?_provided hinbox folder) hthere (by rw [move_provided hinbox]; exact hroom)
  | delete => trivial

/-- One action leads where it leads on paper. -/
theorem act_shelves (hreal : way.dryRun = false) (hn : Numbered folders)
    (hinbox : folders.contains way.inbox = true) (hbelow : way.Below uids folders) {action : Action}
    (hexact : way.Exact action) (hfits : way.Fits uids folders action) :
    shelvesOf (way.act uids folders action) = (shelvesOf folders).act way.inbox (numbersOf uids) action ∧
      Numbered (way.act uids folders action) := by
  have hnot : ¬ way.dryRun = true := by simp [hreal]
  unfold Manner.act
  rw [if_neg hnot]
  cases action with
  | move folder =>
    have hthere : (provided folders folder).contains folder = true := contains_provided.mpr (.inr rfl)
    rw [Shelves.act, ← move_provided hinbox]
    exact moved_shelves (numbered_provided hn folder) hexact (find?_provided hinbox folder) hthere hbelow hfits
  | delete => exact discarded_shelves hn hexact way.inbox uids

theorem creates_shelves (folders : SortedMap String Folder) (action : Action) :
    creates folders action = (shelvesOf folders).creates action := by
  cases action with
  | move folder => rw [creates, Shelves.creates, ← isSome_shelvesOf, Option.not_isSome]
  | delete => rfl

/-- Numbers never go back, so what came before comes before still. -/
theorem below_act (hbelow : way.Below uids folders) (hinbox : folders.contains way.inbox = true)
    {action : Action}
    (hact : shelvesOf (way.act uids folders action) =
      (shelvesOf folders).act way.inbox (numbersOf uids) action) :
    way.Below uids (way.act uids folders action) := by
  have hinbox' : (way.act uids folders action).contains way.inbox = true := contains_act.mpr (.inl hinbox)
  obtain ⟨shelf, hshelf, hle⟩ := grows_act (shelvesOf folders) way.inbox (numbersOf uids) action way.inbox _
    (shelvesOf_box hinbox)
  rw [← hact, shelvesOf_box hinbox'] at hshelf
  cases hshelf
  exact fun u hu => Nat.lt_of_lt_of_le (hbelow u hu) hle

/-- The actions of a rule lead where they lead on paper, and are reported so. -/
theorem actAll_shelves (hreal : way.dryRun = false) (hn : Numbered folders)
    (hinbox : folders.contains way.inbox = true) (hbelow : way.Below uids folders) {actions : List Action}
    (hexact : ∀ action ∈ actions, way.Exact action)
    (hroom : Room ((shelvesOf folders).actAll way.inbox (numbersOf uids) actions)) :
    shelvesOf (way.actAll uids folders actions) =
        (shelvesOf folders).actAll way.inbox (numbersOf uids) actions ∧
      Numbered (way.actAll uids folders actions) ∧
      way.reports uids folders actions = (shelvesOf folders).reports way.inbox (numbersOf uids) actions := by
  induction actions generalizing folders with
  | nil => exact ⟨rfl, hn, rfl⟩
  | cons action rest ih =>
    rw [List.forall_mem_cons] at hexact
    have hfirst : Room ((shelvesOf folders).act way.inbox (numbersOf uids) action) :=
      hroom.before (grows_actAll _ way.inbox (numbersOf uids) rest)
    obtain ⟨hact, hnumbered⟩ := act_shelves hreal hn hinbox hbelow hexact.1 (Manner.fits_of_room hinbox hfirst)
    have hrest : Room ((shelvesOf (way.act uids folders action)).actAll way.inbox (numbersOf uids) rest) := by
      rw [hact]
      exact hroom
    obtain ⟨hall, hnumbered', hreports⟩ := ih hnumbered (contains_act.mpr (.inl hinbox))
      (below_act hbelow hinbox hact) hexact.2 hrest
    rw [hact] at hall hreports
    refine ⟨hall, hnumbered', ?_⟩
    have hsize : uids.size = (numbersOf uids).length := (List.length_map ..).symm
    rw [Manner.reports, Shelves.reports, hreports, hreal, creates_shelves, hsize]

/-! ### Rules on paper -/

/-- A search finds the messages whose numbers the shelf gives. -/
theorem numbersOf_described {shelves : Shelves} {inbox : String} {f : Folder} (rule : Rule)
    (h : shelves inbox = some f.shelf) :
    numbersOf (SearchSpec.described f rule.spec rule.merge) = shelves.matched inbox rule := by
  unfold Shelves.matched
  rw [h]
  show ((f.messages.entries.filter _).map _).map _ = ((f.messages.entries.map _).filter _).map _
  rw [List.filter_map, List.map_map, List.map_map]
  simp only [Function.comp_def, SearchSpec.decide_describes]

theorem isEmpty_numbersOf (uids : UidSet) : uids.isEmpty = (numbersOf uids).isEmpty := by
  rw [numbersOf, SortedSet.isEmpty, List.isEmpty_map]

/-- What a rule finds is what it finds on paper, and was there before anything else comes. -/
theorem found_shelves (hinbox : folders.contains way.inbox = true) (rule : Rule) :
    numbersOf (way.found folders rule) = (shelvesOf folders).matched way.inbox rule :=
  numbersOf_described rule (shelvesOf_box hinbox)

theorem found_below (hn : Numbered folders) (hinbox : folders.contains way.inbox = true) (rule : Rule) :
    way.Below (way.found folders rule) folders := by
  intro u hu
  obtain ⟨m, hm, -⟩ := SearchSpec.mem_described.mp hu
  exact hn way.inbox _ (find?_box hinbox) u m hm

/-- One rule leads where it leads on paper, and is reported so. -/
theorem apply_shelves (hreal : way.dryRun = false) (hn : Numbered folders)
    (hinbox : folders.contains way.inbox = true) {rule : Rule}
    (hexact : ∀ action ∈ rule.actions, way.Exact action)
    (hroom : Room ((shelvesOf folders).apply way.inbox rule)) :
    shelvesOf (way.apply folders rule) = (shelvesOf folders).apply way.inbox rule ∧
      Numbered (way.apply folders rule) ∧
      way.report folders rule = (shelvesOf folders).report way.inbox rule := by
  have hfound := found_shelves hinbox rule
  have hempty := isEmpty_numbersOf (way.found folders rule)
  have hsize : (way.found folders rule).size = (numbersOf (way.found folders rule)).length :=
    (List.length_map ..).symm
  unfold Manner.apply Manner.report Shelves.apply Shelves.report at *
  rw [hsize, hempty, hfound]
  rcases hmatched : (shelvesOf folders).matched way.inbox rule with _ | ⟨n, rest⟩
  · exact ⟨rfl, hn, rfl⟩
  · rw [hmatched] at hfound hroom
    have hacted := actAll_shelves hreal hn hinbox (found_below hn hinbox rule) hexact
      (by rw [hfound]; exact hroom)
    rw [hfound] at hacted
    obtain ⟨hall, hnumbered, hreports⟩ := hacted
    exact ⟨hall, hnumbered, by rw [hreports]; rfl⟩

/-- Rules lead where they lead on paper, one after the other, and are reported so. -/
theorem applyAll_shelves (hreal : way.dryRun = false) (hn : Numbered folders)
    (hinbox : folders.contains way.inbox = true) {rules : List Rule}
    (hexact : ∀ rule ∈ rules, ∀ action ∈ rule.actions, way.Exact action)
    (hroom : Room ((shelvesOf folders).applyAll way.inbox rules)) :
    shelvesOf (way.applyAll folders rules) = (shelvesOf folders).applyAll way.inbox rules ∧
      Numbered (way.applyAll folders rules) ∧
      way.reportAll folders rules = (shelvesOf folders).reportAll way.inbox rules := by
  induction rules generalizing folders with
  | nil => exact ⟨rfl, hn, rfl⟩
  | cons rule rest ih =>
    rw [List.forall_mem_cons] at hexact
    have hfirst : Room ((shelvesOf folders).apply way.inbox rule) :=
      hroom.before (grows_applyAll _ way.inbox rest)
    obtain ⟨happly, hnumbered, hreport⟩ := apply_shelves hreal hn hinbox hexact.1 hfirst
    have hrest : Room ((shelvesOf (way.apply folders rule)).applyAll way.inbox rest) := by
      rw [happly]
      exact hroom
    obtain ⟨hall, hnumbered', hreports⟩ := ih hnumbered (contains_apply hinbox) hexact.2 hrest
    rw [happly] at hall hreports
    refine ⟨hall, hnumbered', ?_⟩
    rw [Manner.reportAll, Shelves.reportAll, hreport, hreports]

end

/-! ### Runs -/

/-- The run has come to folders that are written down as these shelves, on a store that fails no
command and can remove chosen messages. If the run knows which folders there are, it is right. -/
structure Stands (inbox : String) (shelves : Shelves) (run : Run Session) : Prop where
  written : shelvesOf run.session.server.folders = shelves
  numbered : Numbered run.session.server.folders
  hasInbox : (shelves inbox).isSome = true
  failing : run.session.server.failing = none
  uidPlus : run.session.handle.capabilities.contains .uidPlus = true
  known : ∀ known, run.folders = some known → ∀ name, known.contains name = (shelves name).isSome

variable {inbox : String} {shelves : Shelves} {run : Run Session}

/-- Such a run is ready to apply rules. -/
theorem Stands.ready (h : Stands inbox shelves run) :
    Ready (mannerOf run.session inbox false) run where
  capabilities := rfl
  hasInbox := by
    rw [← isSome_shelvesOf, h.written]
    exact h.hasInbox
  informed known hknown := by
    apply SortedSet.ext
    intro name
    rw [← SortedSet.contains_iff, ← SortedSet.contains_iff, h.known known hknown, contains_keySet,
      ← isSome_shelvesOf, h.written]

/-- Rules applied in order take a run to where they lead on paper, and are reported so. -/
theorem applyAll_run (h : Stands inbox shelves run) (rules : List Rule)
    (hroom : Room (shelves.applyAll inbox rules)) :
    ∃ run', applyAll inbox false rules run = (.ok (shelves.reportAll inbox rules), run') ∧
      Stands inbox (shelves.applyAll inbox rules) run' ∧
      run'.elapsed = run.elapsed + pacing * executed (shelves.reportAll inbox rules) := by
  obtain ⟨reports, run', hrun, hreports, hreaches⟩ := (applyAll_ends h.ready rules).exists_ok
    fun _ _ hstuck => hstuck.1 h.failing
  have huidPlus := List.contains_iff_mem.mp h.uidPlus
  have hexact : ∀ rule ∈ rules, ∀ action ∈ rule.actions, (mannerOf run.session inbox false).Exact action := by
    intro rule _ action _
    cases action with
    | move folder => exact .inr huidPlus
    | delete => exact huidPlus
  obtain ⟨hshelves, hnumbered, hpaper⟩ := applyAll_shelves rfl h.numbered h.ready.hasInbox hexact
    (by rw [h.written]; exact hroom)
  rw [h.written] at hshelves hpaper
  rw [hpaper] at hreports
  subst hreports
  have hwritten : shelvesOf run'.session.server.folders = shelves.applyAll inbox rules := by
    rw [hreaches.folders, hshelves]
    rfl
  refine ⟨run', hrun, ⟨hwritten, ?_, ?_, hreaches.failing.trans h.failing, ?_, ?_⟩, hreaches.elapsed⟩
  · rw [hreaches.folders]
    exact hnumbered
  · rw [← hwritten, isSome_shelvesOf]
    exact hreaches.hasInbox
  · rw [hreaches.capabilities]
    exact h.uidPlus
  · intro known hknown name
    rw [hreaches.informed known hknown, contains_keySet, ← isSome_shelvesOf, hwritten]

/-- Rules run on a store that fails nothing and can remove chosen messages leave the folders that
they lead to on paper, as long as the numbers of the messages have 32 bits. They pause after each
action that was done. -/
theorem run_reference (s : Session) (inbox : String) (rules : List Rule)
    (huidPlus : s.handle.capabilities.contains .uidPlus = true) (hfailing : s.server.failing = none)
    (hinbox : s.server.folders.contains inbox = true) (hnumbered : Mailstore.Numbered s.server.folders)
    (hroom : Room ((shelvesOf s.server.folders).applyAll inbox rules)) :
    ∃ t : Session,
      Rules.run inbox none rules false s = (.ok ((shelvesOf s.server.folders).reportAll inbox rules),
        2 * executed ((shelvesOf s.server.folders).reportAll inbox rules), t) ∧
      shelvesOf t.server.folders = (shelvesOf s.server.folders).applyAll inbox rules ∧
      Mailstore.Numbered t.server.folders := by
  have h : Stands inbox (shelvesOf s.server.folders) ⟨s, none, 0⟩ :=
    ⟨rfl, hnumbered, by rw [isSome_shelvesOf, hinbox], hfailing, huidPlus, nofun⟩
  obtain ⟨run, hrun, hstands, helapsed⟩ := applyAll_run h rules hroom
  refine ⟨run.session, ?_, hstands.written, hstands.numbered⟩
  unfold Rules.run
  rw [hrun]
  show (_, run.elapsed, _) = _
  rw [helapsed, Nat.zero_add]
  rfl

/-- A rule that moves the letters of Ann and then deletes what is left of them in the inbox. -/
def filing : Rule := ⟨"ann", { predicates := [.senders ["ann@"]] }, .and, [.move "Ann", .delete]⟩

theorem run_reference_filing :
    ∃ t : Session, Rules.run "INBOX" none [filing] false (SearchSpec.annAndBob [.imap4rev1, .uidPlus]) =
        (.ok [⟨"ann", 1, .acted [⟨.move "Ann", 1, true, false⟩, ⟨.delete, 1, false, false⟩]⟩], 4, t) ∧
      shelvesOf t.server.folders "Ann" = some ⟨2, [(1, SearchSpec.letterFrom "ann@b.org")]⟩ ∧
      shelvesOf t.server.folders "INBOX" = some ⟨3, [(2, SearchSpec.letterFrom "bob@b.org")]⟩ := by
  let s := SearchSpec.annAndBob [.imap4rev1, .uidPlus]
  have hmatched : (shelvesOf s.server.folders).matched "INBOX" filing = [1] := by decide +kernel
  have hroom : Room ((shelvesOf s.server.folders).applyAll "INBOX" [filing]) := by
    show Room ((shelvesOf s.server.folders).apply "INBOX" filing)
    unfold Shelves.apply
    rw [hmatched]
    have hbefore : Room (shelvesOf s.server.folders) := room_shelvesOf_iff.mpr (by decide +kernel)
    exact Room.delete (hbefore.move (by decide +kernel)) "INBOX" [1]
  obtain ⟨t, hrun, hshelves, -⟩ := run_reference s "INBOX" [filing] (by decide) rfl
    (by decide +kernel) (by decide +kernel) hroom
  refine ⟨t, ?_, ?_, ?_⟩
  · have hreports : (shelvesOf s.server.folders).reportAll "INBOX" [filing] =
        [⟨"ann", 1, .acted [⟨.move "Ann", 1, true, false⟩, ⟨.delete, 1, false, false⟩]⟩] := by
      decide +kernel
    rw [hrun, hreports]
    rfl
  · rw [hshelves]
    decide +kernel
  · rw [hshelves]
    decide +kernel

end Mailroom.Rules
