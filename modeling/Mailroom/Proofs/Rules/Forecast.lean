import Mailroom.Proofs.Rules.Progress

/-! What a dry run foretells.

A dry run looks at the folders as they are before anything is done. Each rule finds what it finds
there, and each folder that is not there is reported as one to be created. In a real run a rule may
find less, for what earlier rules took away, or more, for what they brought, and a folder is created
once. `dryRun_foretells_iff` says that the reports agree exactly if neither happens. -/
namespace Mailroom

/-- The report, but for whether anything was really done. -/
def ActionReport.plain (r : ActionReport) : ActionReport := { r with dryRun := false }

@[inherit_doc ActionReport.plain]
def Outcome.plain : Outcome → Outcome
  | .skipped => .skipped
  | .acted actions => .acted (actions.map ActionReport.plain)

@[inherit_doc ActionReport.plain]
def RuleReport.plain (r : RuleReport) : RuleReport := { r with outcome := r.outcome.plain }

namespace Rules
open Mailstore Mailstore.Session

/-- The messages of the inbox that the search of a rule describes. -/
def matched (folders : SortedMap String Folder) (inbox : String) (rule : Rule) : List Message :=
  match folders.find? inbox with
  | some f => f.messages.values.filter fun m => rule.spec.Describes rule.merge m
  | none => []

/-- The folder that an action would have to create. -/
def lacking (folders : SortedMap String Folder) : Action → Option String
  | .move folder => if folders.contains folder then none else some folder
  | .delete => none

/-- The folders that a rule would have to create, one for each action that does. -/
def lacks (folders : SortedMap String Folder) (inbox : String) (rule : Rule) : List String :=
  if matched folders inbox rule = [] then [] else rule.actions.filterMap (lacking folders)

/-- The same in a dry run. -/
def Manner.rehearsal (way : Manner) : Manner := { way with dryRun := true }

section
variable {way : Manner} {folders later : SortedMap String Folder} {created : List String}
  {uids uids' : UidSet}

theorem size_found (way : Manner) (folders : SortedMap String Folder) (rule : Rule) :
    (way.found folders rule).size = (matched folders way.inbox rule).length := by
  show ((((way.box folders).messages.entries.filter _).map _) : List Uid).length = _
  unfold matched Manner.box
  rcases folders.find? way.inbox with _ | f
  · rfl
  · show _ = ((f.messages.entries.map _).filter _).length
    rw [List.filter_map, List.length_map, List.length_map]
    simp only [Function.comp_def, SearchSpec.decide_describes]
    rfl

theorem matched_missing {inbox : String} (h : folders.contains inbox = false) (rule : Rule) :
    matched folders inbox rule = [] := by
  have hnone : folders.find? inbox = none := by
    rw [← Option.not_isSome_iff_eq_none]
    exact Bool.eq_false_iff.mp h
  rw [matched, hnone]

theorem isEmpty_found (way : Manner) (folders : SortedMap String Folder) (rule : Rule) :
    (way.found folders rule).isEmpty = true ↔ matched folders way.inbox rule = [] := by
  rw [← List.length_eq_zero_iff, ← size_found]
  exact List.isEmpty_iff.trans List.length_eq_zero_iff.symm

/-! ### Folders that are created -/

/-- The later folders are those from before and some that were created. -/
def Extends (folders : SortedMap String Folder) (created : List String) (later : SortedMap String Folder) :
    Prop :=
  ∀ name, later.contains name = true ↔ folders.contains name = true ∨ name ∈ created

theorem lacking_eq_some {action : Action} {name : String} :
    lacking folders action = some name ↔ folders.contains name = false ∧ action = .move name := by
  cases action with
  | delete => simp [lacking]
  | move folder =>
    by_cases hthere : folders.contains folder = true
    · simp only [lacking, if_pos hthere, reduceCtorEq, false_iff, not_and]
      rintro hmissing hmove
      cases hmove
      rw [hthere] at hmissing
      cases hmissing
    · simp only [lacking, if_neg hthere, Option.some.injEq, Action.move.injEq, iff_and_self]
      rintro rfl
      exact Bool.eq_false_iff.mpr hthere

theorem lacking_cons (action : Action) (rest : List Action) :
    (action :: rest).filterMap (lacking folders) =
      (lacking folders action).toList ++ rest.filterMap (lacking folders) := by
  rcases hlacking : lacking folders action with _ | name <;> simp [hlacking]

/-- What an action creates has been created after it. -/
theorem Extends.act (h : Extends folders created later) (hreal : way.dryRun = false) (uids : UidSet)
    (action : Action) :
    Extends folders (created ++ (lacking folders action).toList) (way.act uids later action) := by
  intro name
  rw [contains_act, h name, List.mem_append, Option.mem_toList, lacking_eq_some, ← or_assoc]
  by_cases hthere : folders.contains name = true
  · simp [hthere]
  · simp [hthere, hreal]

/-- An action is foretold if its folder has not been created since. -/
theorem creates_foretold_iff (h : Extends folders created later) (hnodup : created.Nodup) (action : Action) :
    creates folders action = creates later action ↔ (created ++ (lacking folders action).toList).Nodup := by
  cases action with
  | delete => simpa [creates, lacking] using hnodup
  | move folder =>
    have hfolder := h folder
    by_cases hthere : folders.contains folder = true
    · simp [creates, lacking, hthere, hfolder, hnodup]
    · rw [or_iff_right hthere] at hfolder
      have hcreates : creates folders (.move folder) = true := by simp [creates, hthere]
      have hlacking : (lacking folders (.move folder)).toList = [folder] := by simp [lacking, hthere]
      rw [hcreates, hlacking, List.nodup_append]
      constructor
      · intro hlater
        have hnot : folder ∉ created := by
          rw [← hfolder]
          simpa [creates] using hlater.symm
        refine ⟨hnodup, by simp, ?_⟩
        rintro name hname _ hmem rfl
        exact hnot (List.mem_singleton.mp hmem ▸ hname)
      · rintro ⟨-, -, hnot⟩
        have hmissing : ¬ later.contains folder = true := fun hthere' =>
          hnot folder (hfolder.mp hthere') folder (List.mem_singleton_self _) rfl
        simp [creates, hmissing]

/-! ### Reports that agree -/

/-- A dry run reports the actions of a rule rightly if none of their folders has been created since, and
none is created twice. -/
theorem reports_foretold_iff (h : Extends folders created later) (hnodup : created.Nodup)
    (hreal : way.dryRun = false) (hsize : uids.size = uids'.size) (actions : List Action) :
    (way.rehearsal.reports uids folders actions).map ActionReport.plain =
        (way.reports uids' later actions).map ActionReport.plain ↔
      (created ++ actions.filterMap (lacking folders)).Nodup := by
  induction actions generalizing later created with
  | nil => simpa [Manner.reports] using hnodup
  | cons action rest ih =>
    have hfirst := creates_foretold_iff h hnodup action
    rw [Manner.reports, Manner.reports, act_dry rfl, List.map_cons, List.map_cons, lacking_cons,
      ← List.append_assoc, List.cons.injEq]
    by_cases hnew : (created ++ (lacking folders action).toList).Nodup
    · rw [ih (h.act hreal uids' action) hnew]
      refine and_iff_right ?_
      simp [ActionReport.plain, hsize, hfirst.mpr hnew]
    · refine iff_of_false (fun heq => hnew (hfirst.mp ?_)) fun hall => hnew ?_
      · simpa [ActionReport.plain, hsize] using heq.1
      · exact (List.nodup_append.mp hall).1

theorem Extends.actAll (h : Extends folders created later) (hreal : way.dryRun = false) (uids : UidSet)
    (actions : List Action) :
    Extends folders (created ++ actions.filterMap (lacking folders)) (way.actAll uids later actions) := by
  induction actions generalizing later created with
  | nil => simpa [Manner.actAll] using h
  | cons action rest ih =>
    have hrest := ih (h.act hreal uids action)
    rwa [List.append_assoc, ← lacking_cons] at hrest

/-- The number of messages that a rule is about is reported in any case. -/
theorem report_matched (way : Manner) (folders : SortedMap String Folder) (rule : Rule) :
    (way.report folders rule).matched = (matched folders way.inbox rule).length := by
  unfold Manner.report
  split
  · next hempty =>
    rw [(isEmpty_found way folders rule).mp hempty]
    rfl
  · exact size_found way folders rule

/-- A dry run reports a rule rightly if it finds as many messages as when its turn comes, and its
folders are still to be created then, each once. -/
theorem report_foretold_iff (h : Extends folders created later) (hnodup : created.Nodup)
    (hreal : way.dryRun = false) (rule : Rule) :
    (way.rehearsal.report folders rule).plain = (way.report later rule).plain ↔
      (matched later way.inbox rule).length = (matched folders way.inbox rule).length ∧
        (created ++ lacks folders way.inbox rule).Nodup := by
  by_cases hcount : (matched later way.inbox rule).length = (matched folders way.inbox rule).length
  · rw [and_iff_right hcount]
    have hfound := isEmpty_found way.rehearsal folders rule
    have hfound' := isEmpty_found way later rule
    have hsize := size_found way.rehearsal folders rule
    have hsize' := size_found way later rule
    have hboth : matched later way.inbox rule = [] ↔ matched folders way.inbox rule = [] := by
      rw [← List.length_eq_zero_iff, hcount, List.length_eq_zero_iff]
    unfold Manner.report lacks
    by_cases hnone : matched folders way.inbox rule = []
    · rw [if_pos (hfound.mpr hnone), if_pos (hfound'.mpr (hboth.mpr hnone)), if_pos hnone]
      exact iff_of_true rfl (by simpa using hnodup)
    · rw [if_neg fun h => hnone (hfound.mp h), if_neg fun h => hnone (hboth.mp (hfound'.mp h)), if_neg hnone,
        ← reports_foretold_iff h hnodup hreal (hsize.trans (hcount.symm.trans hsize'.symm))]
      simp [RuleReport.plain, Outcome.plain, hsize.trans (hcount.symm.trans hsize'.symm)]
  · refine iff_of_false (fun heq => hcount ?_) fun hall => hcount hall.1
    have hmatched := congrArg RuleReport.matched heq
    rw [RuleReport.plain, RuleReport.plain, report_matched, report_matched] at hmatched
    exact hmatched.symm

theorem Extends.apply (h : Extends folders created later) (hreal : way.dryRun = false) {rule : Rule}
    (hcount : (matched later way.inbox rule).length = (matched folders way.inbox rule).length) :
    Extends folders (created ++ lacks folders way.inbox rule) (way.apply later rule) := by
  have hfound := isEmpty_found way later rule
  have hboth : matched later way.inbox rule = [] ↔ matched folders way.inbox rule = [] := by
    rw [← List.length_eq_zero_iff, hcount, List.length_eq_zero_iff]
  unfold Manner.apply lacks
  by_cases hnone : matched folders way.inbox rule = []
  · rw [if_pos (hfound.mpr (hboth.mpr hnone)), if_pos hnone, List.append_nil]
    exact h
  · rw [if_neg fun h => hnone (hboth.mp (hfound.mp h)), if_neg hnone]
    exact h.actAll hreal _ rule.actions

/-- What holds at each place of a list holds at its head and at each place after. -/
theorem forall_places_cons {α : Type} {p : List α → α → Prop} {x : α} {xs : List α} :
    (∀ before y after, x :: xs = before ++ y :: after → p before y) ↔
      p [] x ∧ ∀ before y after, xs = before ++ y :: after → p (x :: before) y := by
  constructor
  · exact fun h => ⟨h [] x xs rfl, fun before y after hxs => h (x :: before) y after (by rw [hxs]; rfl)⟩
  · rintro ⟨hhead, htail⟩ before y after hxs
    cases before with
    | nil =>
      cases hxs
      exact hhead
    | cons z before =>
      rw [List.cons_append, List.cons.injEq] at hxs
      obtain ⟨rfl, hxs⟩ := hxs
      exact htail before y after hxs

/-- A dry run reports rules rightly if each finds as many messages as when its turn comes, and each
folder is created once. -/
theorem reportAll_foretold_iff (h : Extends folders created later) (hnodup : created.Nodup)
    (hreal : way.dryRun = false) (rules : List Rule) :
    (way.rehearsal.reportAll folders rules).map RuleReport.plain =
        (way.reportAll later rules).map RuleReport.plain ↔
      (∀ before rule after, rules = before ++ rule :: after →
        (matched (way.applyAll later before) way.inbox rule).length =
          (matched folders way.inbox rule).length) ∧
      (created ++ rules.flatMap (lacks folders way.inbox)).Nodup := by
  induction rules generalizing later created with
  | nil => simpa [Manner.reportAll] using hnodup
  | cons rule rest ih =>
    have hfirst := report_foretold_iff h hnodup hreal rule
    rw [Manner.reportAll, Manner.reportAll, apply_dry rfl, List.map_cons, List.map_cons, List.cons.injEq,
      hfirst, forall_places_cons, List.flatMap_cons, ← List.append_assoc]
    by_cases hcount : (matched later way.inbox rule).length = (matched folders way.inbox rule).length
    · by_cases hnew : (created ++ lacks folders way.inbox rule).Nodup
      · rw [ih (h.apply hreal hcount) hnew, and_iff_right ⟨hcount, hnew⟩, and_assoc]
        exact (and_iff_right hcount).symm
      · exact iff_of_false (fun hall => hnew hall.1.2) fun hall => hnew (List.nodup_append.mp hall.2).1
    · exact iff_of_false (fun hall => hcount hall.1.1) fun hall => hcount hall.1.1

end

/-! ### Runs that agree -/

/-- On a store that fails no command, a dry run of rules reports what the real run reports, but for
the mark of a dry run, if each rule finds as many messages in the inbox as the earlier rules leave for
it, and no folder would have to be created twice. Otherwise it does not. -/
theorem dryRun_foretells_iff (s : Session) (inbox : String) (rules : List Rule)
    (hfailing : s.server.failing = none) :
    (Rules.run inbox none rules true s).1.map (·.map RuleReport.plain) =
        (Rules.run inbox none rules false s).1.map (·.map RuleReport.plain) ↔
      (∀ before rule after, rules = before ++ rule :: after →
        (matched (Rules.run inbox none before false s).2.2.server.folders inbox rule).length =
          (matched s.server.folders inbox rule).length) ∧
      (rules.flatMap (lacks s.server.folders inbox)).Nodup := by
  by_cases hinbox : s.server.folders.contains inbox = true
  · have hok : ∀ rules dryRun, ∃ elapsed t, Rules.run inbox none rules dryRun s =
          (.ok ((mannerOf s inbox dryRun).reportAll s.server.folders rules), elapsed, t) ∧
        t.server.folders = (mannerOf s inbox dryRun).applyAll s.server.folders rules := fun rules dryRun =>
      (run_cases hinbox rules dryRun).resolve_right fun ⟨_, _, _, _, hfails, _⟩ => hfails hfailing
    have hleft : ∀ rules, (Rules.run inbox none rules false s).2.2.server.folders =
        (mannerOf s inbox false).applyAll s.server.folders rules := by
      intro rules
      obtain ⟨elapsed, t, hrun, hfolders⟩ := hok rules false
      rw [hrun, ← hfolders]
    obtain ⟨_, _, hdry, -⟩ := hok rules true
    obtain ⟨_, _, hreal, -⟩ := hok rules false
    have hextends : Extends s.server.folders [] s.server.folders := by simp [Extends]
    have hnotDry : (mannerOf s inbox false).dryRun = false := rfl
    have hforetold := reportAll_foretold_iff hextends .nil hnotDry rules
    rw [hdry, hreal]
    simp only [Except.map, Except.ok.injEq, hleft]
    exact hforetold
  · have hmissing : s.server.folders.contains inbox = false := Bool.eq_false_iff.mpr hinbox
    have hlacks : rules.flatMap (lacks s.server.folders inbox) = [] :=
      List.flatMap_eq_nil_iff.mpr fun rule _ => if_pos (matched_missing hmissing rule)
    refine iff_of_true ?_ ⟨fun before rule after _ => ?_, ?_⟩
    · rw [run_missing_fails hmissing hfailing, run_missing_fails hmissing hfailing]
    · rw [run_missing hmissing]
    · rw [hlacks]
      exact .nil

/-- Two rules for the same letters, which are to go to the same new folder. -/
def twice : List Rule := [⟨"first", {}, .and, [.move "New"]⟩, ⟨"second", {}, .and, [.move "New"]⟩]

theorem dryRun_foretells_not_twice :
    (Rules.run "INBOX" none twice true (SearchSpec.annAndBob [.move])).1.map (·.map RuleReport.plain) ≠
      (Rules.run "INBOX" none twice false (SearchSpec.annAndBob [.move])).1.map (·.map RuleReport.plain) := by
  intro heq
  have hall := (dryRun_foretells_iff (SearchSpec.annAndBob [.move]) "INBOX" twice rfl).mp heq
  exact absurd hall.2 (by decide +kernel)

end Rules

end Mailroom
