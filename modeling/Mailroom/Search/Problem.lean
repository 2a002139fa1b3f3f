import Mailroom.Text.Decimal
import Mailroom.Text.Quoted

/-! What can be wrong with a search that someone wrote down. -/
namespace Mailroom

/-- Why a search cannot be understood. -/
inductive SpecProblem
  /-- The text names no year, month or day. -/
  | notPeriod (text : String)
  /-- The text names no day. -/
  | notDay (text : String)
  /-- A range has two ends, and this many were given. -/
  | endCount (n : Nat)
  | noAddress (key : String)
  /-- There is no day so many days ago. -/
  | tooFarBack (days : Nat)
  /-- The problem is in this rule. -/
  | inRule (rule : String) (problem : SpecProblem)
  deriving DecidableEq, Repr

def SpecProblem.message : SpecProblem → String
  | notPeriod text => "date " ++ Quoted.quote text ++ " is not YYYY, YYYY-MM or YYYY-MM-DD"
  | notDay text => "date " ++ Quoted.quote text ++ " is not YYYY-MM-DD"
  | endCount n => "a date range needs exactly two dates, got " ++ Decimal.text n
  | noAddress key => key ++ " needs at least one address"
  | tooFarBack days => "--days " ++ Decimal.text days ++ " is too far back"
  | inRule rule problem => "rule " ++ rule ++ ": " ++ problem.message

end Mailroom
