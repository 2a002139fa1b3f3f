import Mailroom.Proofs.Mailstore.Shelves
import Mailroom.Proofs.Search.Meaning
import Mailroom.Rules.Report

/-! What rules are meant to do to the folders of a store.

Here rules act on the folders as they are written down, one rule after the other: a rule takes
the numbers of the messages that its search describes, and its actions move these or delete
them, as far as they are still in the inbox. -/
namespace Mailroom.Mailstore.Shelves

/-! ### Actions -/

/-- One action, on the messages with one of these numbers. -/
def act (shelves : Shelves) (inbox : String) (numbers : List Nat) : Action → Shelves
  | .move folder => shelves.move inbox folder numbers
  | .delete => shelves.delete inbox numbers

/-- Whether an action creates a folder. -/
def creates (shelves : Shelves) : Action → Bool
  | .move folder => (shelves folder).isNone
  | .delete => false

/-- Several actions, one after the other. -/
def actAll (inbox : String) (numbers : List Nat) (shelves : Shelves) (actions : List Action) : Shelves :=
  actions.foldl (fun shelves action => shelves.act inbox numbers action) shelves

/-- What is reported of several actions. -/
def reports (inbox : String) (numbers : List Nat) (shelves : Shelves) : List Action → List ActionReport
  | [] => []
  | action :: rest =>
    ⟨action, numbers.length, shelves.creates action, false⟩ ::
      reports inbox numbers (shelves.act inbox numbers action) rest

/-! ### Rules -/

/-- The numbers of the messages of the inbox that the search of a rule describes. -/
def matched (shelves : Shelves) (inbox : String) (rule : Rule) : List Nat :=
  match shelves inbox with
  | some shelf => (shelf.mails.filter fun e => rule.spec.Describes rule.merge e.2).map (·.1)
  | none => []

/-- One rule. If its search describes nothing, nothing happens. -/
def apply (shelves : Shelves) (inbox : String) (rule : Rule) : Shelves :=
  match shelves.matched inbox rule with
  | [] => shelves
  | numbers => shelves.actAll inbox numbers rule.actions

/-- What is reported of one rule. -/
def report (shelves : Shelves) (inbox : String) (rule : Rule) : RuleReport :=
  match shelves.matched inbox rule with
  | [] => ⟨rule.name, 0, .skipped⟩
  | numbers => ⟨rule.name, numbers.length, .acted (shelves.reports inbox numbers rule.actions)⟩

/-- Several rules, one after the other. -/
def applyAll (shelves : Shelves) (inbox : String) (rules : List Rule) : Shelves :=
  rules.foldl (fun shelves rule => shelves.apply inbox rule) shelves

/-- What is reported of several rules. -/
def reportAll (inbox : String) (shelves : Shelves) : List Rule → List RuleReport
  | [] => []
  | rule :: rest => shelves.report inbox rule :: reportAll inbox (shelves.apply inbox rule) rest

/-- How many actions were done. -/
def executed : List RuleReport → Nat
  | [] => 0
  | ⟨_, _, .skipped⟩ :: rest => executed rest
  | ⟨_, _, .acted actions⟩ :: rest => actions.length + executed rest

theorem length_reports (inbox : String) (numbers : List Nat) (shelves : Shelves)
    (actions : List Action) : (shelves.reports inbox numbers actions).length = actions.length := by
  induction actions generalizing shelves with
  | nil => rfl
  | cons action rest ih => rw [reports, List.length_cons, ih, List.length_cons]

theorem executed_cons (report : RuleReport) (rest : List RuleReport) :
    executed (report :: rest) = executed [report] + executed rest := by
  obtain ⟨name, matched, _ | actions⟩ := report
  · exact (Nat.zero_add _).symm
  · rfl

/-! ### Numbers grow -/

variable {shelves : Shelves}

theorem grows_act (shelves : Shelves) (inbox : String) (numbers : List Nat) (action : Action) :
    Grows shelves (shelves.act inbox numbers action) := by
  cases action with
  | move folder =>
    exact ((grows_provide shelves folder).trans (grows_without _ inbox numbers)).trans
      (grows_receive _ folder _)
  | delete => exact grows_without shelves inbox numbers

theorem grows_actAll (shelves : Shelves) (inbox : String) (numbers : List Nat) (actions : List Action) :
    Grows shelves (shelves.actAll inbox numbers actions) := by
  induction actions generalizing shelves with
  | nil => exact .refl shelves
  | cons action rest ih => exact (grows_act shelves inbox numbers action).trans (ih _)

theorem grows_apply (shelves : Shelves) (inbox : String) (rule : Rule) :
    Grows shelves (shelves.apply inbox rule) := by
  unfold apply
  split
  · exact .refl shelves
  · exact grows_actAll shelves inbox _ rule.actions

theorem grows_applyAll (shelves : Shelves) (inbox : String) (rules : List Rule) :
    Grows shelves (shelves.applyAll inbox rules) := by
  induction rules generalizing shelves with
  | nil => exact .refl shelves
  | cons rule rest ih => exact (grows_apply shelves inbox rule).trans (ih _)

end Mailroom.Mailstore.Shelves
