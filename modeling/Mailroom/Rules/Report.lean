import Mailroom.Rules.Rule

/-! What came of a rule. -/
namespace Mailroom

/-- What came of one action. -/
structure ActionReport where
  action : Action
  /-- How many messages it was about. -/
  count : Nat
  /-- Whether the folder had to be created. -/
  createdFolder : Bool
  /-- Whether nothing was really done. -/
  dryRun : Bool
  deriving DecidableEq, Repr

/-- What came of the actions of a rule. -/
inductive Outcome
  /-- There was no message to act on. -/
  | skipped
  | acted (actions : List ActionReport)
  deriving DecidableEq, Repr

/-- What came of a rule. -/
structure RuleReport where
  rule : String
  /-- How many messages it found. -/
  matched : Nat
  outcome : Outcome
  deriving DecidableEq, Repr

namespace ActionReport

/-- The action as it is reported. -/
def verb (r : ActionReport) : String :=
  match r.action, r.dryRun with
  | .move _, true => "would move"
  | .move _, false => "moved"
  | .delete, true => "would delete"
  | .delete, false => "deleted"

def text (r : ActionReport) : String :=
  let messages := if r.count = 1 then "message" else "messages"
  let done := r.verb ++ " " ++ Decimal.text r.count ++ " " ++ messages
  match r.action with
  | .delete => done
  | .move folder =>
    let created := if r.dryRun then "would create" else "created"
    done ++ " to " ++ folder ++
      (if r.createdFolder then " (" ++ created ++ " " ++ folder ++ ")" else "")

end ActionReport

namespace RuleReport

/-- Whether a folder was really created. -/
def createdFolder (r : RuleReport) : Bool :=
  match r.outcome with
  | .skipped => false
  | .acted actions => actions.any fun a => a.createdFolder && !a.dryRun

def text (r : RuleReport) : String :=
  match r.outcome with
  | .skipped => r.rule ++ ": no matches"
  | .acted [] => r.rule ++ ":"
  | .acted actions => r.rule ++ ": " ++ ", ".intercalate (actions.map ActionReport.text)

end RuleReport

end Mailroom
