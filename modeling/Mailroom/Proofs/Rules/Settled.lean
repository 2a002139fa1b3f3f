import Mailroom.Proofs.Mailstore.Shelf
import Mailroom.Proofs.Rules.DryRun
import Mailroom.Proofs.Rules.Progress

/-! Rules that have been applied find nothing any more.

What a rule has found is gone from the inbox once the rule has been applied, on any store
(`apply_settles`); and as long as no rule moves messages into the inbox, the inbox only ever shrinks
(`Manner.Shrinks`), so that no later rule brings back what an earlier one is about
(`applyAll_settles`). A run of rules that find nothing only inquires (`applyAll_idle`), so running the
same rules a second time does nothing (`run_again_idle`). -/
namespace Mailroom.Rules
open Mailstore Mailstore.Session Mailstore.Folder

/-! ### The inbox shrinks -/

/-- Every message that is in the inbox later was in it before, under the same identifier and with the
same flags. -/
def Manner.Shrinks (way : Manner) (folders later : SortedMap String Folder) : Prop :=
  ∀ u m, (way.box later).messages.find? u = some m → (way.box folders).messages.find? u = some m

/-- The rule does something with what it finds, and does not put it back into the inbox. -/
structure Manner.Clears (way : Manner) (rule : Rule) : Prop where
  acts : rule.actions ≠ []
  away : Action.move way.inbox ∉ rule.actions

section
variable {way : Manner} {folders later : SortedMap String Folder} {uids : UidSet}

theorem Manner.Shrinks.refl (way : Manner) (folders : SortedMap String Folder) :
    way.Shrinks folders folders := fun _ _ => id

theorem Manner.Shrinks.trans {last : SortedMap String Folder} (h : way.Shrinks folders later)
    (h' : way.Shrinks later last) : way.Shrinks folders last := fun u m hm => h u m (h' u m hm)

theorem box_change (h : folders.contains way.inbox = true) (f : Folder → Folder) :
    way.box (folders.change way.inbox f) = f (way.box folders) := by
  rw [Manner.box, SortedMap.find?_change, if_pos rfl, find?_box h]
  rfl

theorem box_change_other {name : String} (h : way.inbox ≠ name) (f : Folder → Folder) :
    way.box (folders.change name f) = way.box folders := by
  rw [Manner.box, SortedMap.find?_change, if_neg h]
  rfl

/-- Messages that are deleted from the inbox are gone from it, and none comes into it. -/
theorem box_discarded (h : folders.contains way.inbox = true) {u : Uid} {m : Message}
    (hm : (way.box (discarded way.capabilities folders way.inbox uids)).messages.find? u = some m) :
    u ∉ uids ∧ (way.box folders).messages.find? u = some m := by
  have honly : ∀ u ∈ uids, (scope way.capabilities uids).all (·.contains u) = true := by
    intro u hu
    unfold scope
    split
    · exact SortedSet.contains_iff.mpr hu
    · rfl
  rw [discarded, box_change h, find?_expunge_markDeleted _ _ _ honly] at hm
  by_cases hu : u ∈ uids
  · rw [if_pos hu] at hm
    cases hm
  · rw [if_neg hu] at hm
    exact ⟨hu, Option.eq_some_of_filter_eq_some hm⟩

/-- So it is with messages that are moved to another folder. -/
theorem box_moved (h : folders.contains way.inbox = true) {folder : String} (haway : way.inbox ≠ folder)
    (f : Folder) {u : Uid} {m : Message}
    (hm : (way.box (moved way.capabilities folders way.inbox folder f uids)).messages.find? u = some m) :
    u ∉ uids ∧ (way.box folders).messages.find? u = some m := by
  unfold moved at hm
  split at hm
  · rw [transferred, if_pos rfl, box_change_other haway, box_change h, find?_remove] at hm
    by_cases hu : u ∈ uids
    · rw [if_pos hu] at hm
      cases hm
    · rw [if_neg hu] at hm
      exact ⟨hu, hm⟩
  · have htransferred : (transferred folders way.inbox folder f uids false).contains way.inbox = true := by
      simp [transferred, h]
    have hgone := box_discarded htransferred hm
    rw [transferred, if_neg Bool.false_ne_true, box_change_other haway] at hgone
    exact hgone

variable (hreal : way.dryRun = false)
include hreal

/-- What an action that does not move into the inbox is about is gone from there, and nothing comes
into it. -/
theorem box_act (h : folders.contains way.inbox = true) {action : Action}
    (haway : action ≠ .move way.inbox) {u : Uid} {m : Message}
    (hm : (way.box (way.act uids folders action)).messages.find? u = some m) :
    u ∉ uids ∧ (way.box folders).messages.find? u = some m := by
  unfold Manner.act at hm
  rw [if_neg (by simp [hreal])] at hm
  cases action with
  | move folder =>
    have hother : way.inbox ≠ folder := fun hsame => haway (congrArg Action.move hsame.symm)
    have hprovided : (provided folders folder).contains way.inbox = true := contains_provided.mpr (.inl h)
    have hgone := box_moved hprovided hother _ hm
    rw [box_provided h] at hgone
    exact hgone
  | delete => exact box_discarded h hm

theorem actAll_shrinks (h : folders.contains way.inbox = true) {actions : List Action}
    (haway : Action.move way.inbox ∉ actions) : way.Shrinks folders (way.actAll uids folders actions) := by
  induction actions generalizing folders with
  | nil => exact .refl way folders
  | cons action rest ih =>
    rw [List.mem_cons, not_or] at haway
    have hfirst : way.Shrinks folders (way.act uids folders action) :=
      fun u m hm => (box_act hreal h (Ne.symm haway.1) hm).2
    exact hfirst.trans (ih (contains_act.mpr (.inl h)) haway.2)

theorem apply_shrinks (h : folders.contains way.inbox = true) {rule : Rule} (hclears : way.Clears rule) :
    way.Shrinks folders (way.apply folders rule) := by
  unfold Manner.apply
  split
  · exact .refl way folders
  · exact actAll_shrinks hreal h hclears.away

theorem applyAll_shrinks (h : folders.contains way.inbox = true) {rules : List Rule}
    (hclears : ∀ rule ∈ rules, way.Clears rule) : way.Shrinks folders (way.applyAll folders rules) := by
  induction rules generalizing folders with
  | nil => exact .refl way folders
  | cons rule rest ih =>
    rw [List.forall_mem_cons] at hclears
    exact (apply_shrinks hreal h hclears.1).trans (ih (contains_apply h) hclears.2)

omit hreal in
/-- In an inbox that has shrunk a rule finds nothing where it found nothing before. -/
theorem Manner.Shrinks.found_empty (h : way.Shrinks folders later) {rule : Rule}
    (hempty : way.found folders rule = .empty) : way.found later rule = .empty := by
  apply SortedSet.ext
  intro u
  refine iff_of_false (fun hu => ?_) (SortedSet.not_mem_empty u)
  obtain ⟨m, hm, hdescribes⟩ := SearchSpec.mem_described.mp hu
  have hbefore : u ∈ way.found folders rule := SearchSpec.mem_described.mpr ⟨m, h u m hm, hdescribes⟩
  rw [hempty] at hbefore
  exact SortedSet.not_mem_empty u hbefore

/-- What the actions of a rule are about is gone from the inbox: the first of them takes it away, and
the others bring nothing back. -/
theorem actAll_settles (h : folders.contains way.inbox = true) {actions : List Action} (hacts : actions ≠ [])
    (haway : Action.move way.inbox ∉ actions) {u : Uid} {m : Message}
    (hm : (way.box (way.actAll uids folders actions)).messages.find? u = some m) :
    u ∉ uids ∧ (way.box folders).messages.find? u = some m := by
  cases actions with
  | nil => exact absurd rfl hacts
  | cons action rest =>
    rw [List.mem_cons, not_or] at haway
    have hrest : way.Shrinks (way.act uids folders action) (way.actAll uids folders (action :: rest)) :=
      actAll_shrinks hreal (contains_act.mpr (.inl h)) haway.2
    exact box_act hreal h (Ne.symm haway.1) (hrest u m hm)

/-- A rule that has been applied finds nothing. -/
theorem apply_settles (h : folders.contains way.inbox = true) {rule : Rule} (hclears : way.Clears rule) :
    way.found (way.apply folders rule) rule = .empty := by
  unfold Manner.apply
  split
  · next hempty => exact SortedSet.isEmpty_iff.mp hempty
  · apply SortedSet.ext
    intro u
    refine iff_of_false (fun hu => ?_) (SortedSet.not_mem_empty u)
    obtain ⟨m, hm, hdescribes⟩ := SearchSpec.mem_described.mp hu
    obtain ⟨hgone, hbefore⟩ := actAll_settles hreal h hclears.acts hclears.away hm
    exact hgone (SearchSpec.mem_described.mpr ⟨m, hbefore, hdescribes⟩)

/-- Once all rules have been applied, none of them finds anything. -/
theorem applyAll_settles (h : folders.contains way.inbox = true) {rules : List Rule}
    (hclears : ∀ rule ∈ rules, way.Clears rule) :
    ∀ rule ∈ rules, way.found (way.applyAll folders rules) rule = .empty := by
  induction rules generalizing folders with
  | nil => exact nofun
  | cons first rest ih =>
    rw [List.forall_mem_cons] at hclears ⊢
    have hlater : (way.apply folders first).contains way.inbox = true := contains_apply h
    exact ⟨(applyAll_shrinks hreal hlater hclears.2).found_empty (apply_settles hreal h hclears.1),
      ih hlater hclears.2⟩

end

/-! ### Running the same rules again -/

/-- What is reported of rules that find nothing. -/
def skippedAll (rules : List Rule) : List RuleReport := rules.map fun rule => ⟨rule.name, 0, .skipped⟩

section
variable {way : Manner} {run : Run Session}

/-- A rule that finds nothing is skipped, after some inquiries. -/
theorem apply_idle (h : Ready way run) (hfailing : run.session.server.failing = none) {rule : Rule}
    (hempty : way.found run.session.server.folders rule = .empty) :
    ∃ run', Rules.apply way.inbox way.dryRun rule run = (.ok ⟨rule.name, 0, .skipped⟩, run') ∧
      Reaches way run run.session.server.folders 0 run' ∧ Unpaused Session.Untouched run run' := by
  obtain ⟨uids, run', hfind, huids, hreaches⟩ := (found_ends h rule).exists_ok fun _ _ hstuck => hstuck.1 hfailing
  rw [hempty] at huids
  subst huids
  have huntouched := onSession_within
    (rule.spec.resolve_within Session.searches_untouched way.inbox rule.merge) run
  rw [hfind] at huntouched
  exact ⟨run', bind_ok hfind, hreaches, huntouched⟩

/-- Rules that find nothing are skipped one after the other, and nothing happens but inquiries. -/
theorem applyAll_idle (h : Ready way run) (hfailing : run.session.server.failing = none) {rules : List Rule}
    (hempty : ∀ rule ∈ rules, way.found run.session.server.folders rule = .empty) :
    ∃ run', Rules.applyAll way.inbox way.dryRun rules run = (.ok (skippedAll rules), run') ∧
      Unpaused Session.Untouched run run' := by
  induction rules generalizing run with
  | nil => exact ⟨run, rfl, Std.Refl.refl run⟩
  | cons rule rest ih =>
    rw [List.forall_mem_cons] at hempty
    obtain ⟨run₁, hfirst, hreaches, huntouched⟩ := apply_idle h hfailing hempty.1
    rw [← hreaches.folders] at hempty
    obtain ⟨run₂, hrest, huntouched'⟩ := ih hreaches.toReady (hreaches.failing.trans hfailing) hempty.2
    refine ⟨run₂, ?_, IsTrans.trans _ _ _ huntouched huntouched'⟩
    exact (bind_ok hfirst).trans (bind_ok hrest)

end

/-- Rules that do something with what they find, and put nothing back into the inbox, leave nothing for
a second run. On a store that fails nothing the first run succeeds; and any later run of the same rules
on the folders that it leaves succeeds with every rule skipped, changes no folder, and sends nothing but
inquiries, without a pause. -/
theorem run_again_idle (s : Session) (inbox : String) (rules : List Rule)
    (hfailing : s.server.failing = none) (hinbox : s.server.folders.contains inbox = true)
    (hacts : ∀ rule ∈ rules, rule.actions ≠ []) (haway : ∀ rule ∈ rules, Action.move inbox ∉ rule.actions) :
    ∃ reports elapsed t, Rules.run inbox none rules false s = (.ok reports, elapsed, t) ∧
      t.server.failing = none ∧
      ∀ again : Session, again.server.folders = t.server.folders → again.server.failing = none →
        ∃ v, Rules.run inbox none rules false again = (.ok (skippedAll rules), 0, v) ∧
          again.server.Untouched v.server := by
  have hclears : ∀ rule ∈ rules, (mannerOf s inbox false).Clears rule :=
    fun rule hrule => ⟨hacts rule hrule, haway rule hrule⟩
  have hready : Ready (mannerOf s inbox false) ⟨s, none, 0⟩ := ⟨rfl, hinbox, nofun⟩
  obtain ⟨reports, run, hrun, -, hreaches⟩ := (applyAll_ends hready rules).exists_ok
    fun _ _ hstuck => hstuck.1 hfailing
  refine ⟨reports, run.elapsed, run.session, run_of_applyAll hrun, hreaches.failing.trans hfailing, ?_⟩
  intro again hfolders hagain
  have hthere : again.server.folders.contains inbox = true := by
    rw [hfolders]
    exact hreaches.hasInbox
  have hready' : Ready (mannerOf again inbox false) ⟨again, none, 0⟩ := ⟨rfl, hthere, nofun⟩
  have hempty : ∀ rule ∈ rules, (mannerOf again inbox false).found again.server.folders rule = .empty := by
    rw [hfolders, hreaches.folders]
    exact applyAll_settles rfl hinbox hclears
  obtain ⟨run', hskips, huntouched⟩ := applyAll_idle hready' hagain hempty
  refine ⟨run'.session, (run_of_applyAll hskips).trans ?_, huntouched.session⟩
  have helapsed : run'.elapsed = 0 := huntouched.elapsed
  rw [helapsed]

/-- A rule that moves the letters of Ann to a folder, and one that deletes all unread letters. -/
def tidying : List Rule :=
  [⟨"ann", { predicates := [.senders ["ann@"]] }, .and, [.move "Ann"]⟩,
    ⟨"rest", { unread := true }, .and, [.delete]⟩]

theorem run_again_idle_tidying :
    ∃ reports elapsed t,
      Rules.run "INBOX" none tidying false (SearchSpec.annAndBob []) = (.ok reports, elapsed, t) ∧
      t.server.folders.contains "Ann" = true ∧
      ∃ v, Rules.run "INBOX" none tidying false t =
          (.ok [⟨"ann", 0, .skipped⟩, ⟨"rest", 0, .skipped⟩], 0, v) ∧
        t.server.Untouched v.server := by
  obtain ⟨reports, elapsed, t, hfirst, hfailing, hagain⟩ := run_again_idle (SearchSpec.annAndBob []) "INBOX"
    tidying rfl (by decide +kernel) (by decide) (by decide)
  obtain ⟨v, hsecond, huntouched⟩ := hagain t rfl hfailing
  refine ⟨reports, elapsed, t, hfirst, ?_, v, hsecond, huntouched⟩
  have ht : t = (Rules.run "INBOX" none tidying false (SearchSpec.annAndBob [])).2.2 := by rw [hfirst]
  rw [ht]
  decide +kernel

end Mailroom.Rules
