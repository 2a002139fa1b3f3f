import Mailroom.Calendar.Reading
import Mailroom.Search.Problem
import Mailroom.Text.Split

/-! Days, and ranges of days, as a search names them. -/
namespace Mailroom

/-- The day that a text names. -/
def Date.ofText (text : String) : Except SpecProblem Date :=
  match Calendar.readDate? text with
  | some date => pure date
  | none => throw (.notDay text)

/-- The days from `since` on, before `before`. -/
structure DateRange where
  since : Date
  before : Date
  deriving DecidableEq

namespace DateRange

/-- The numbers between the dashes of a text. -/
def numbers? (text : String) : Option (List Nat) :=
  (Split.pieces '-' (Blank.trim text).toList).mapM fun piece =>
    Decimal.unsigned? UInt32.size (String.ofList piece)

/-- The range that begins with a date and ends some months later. -/
def months? (since : Date) (months : Nat) : Option DateRange :=
  (since.addMonths? months).map fun before => ⟨since, before⟩

/-- The year, month or day that one, two or three numbers name. -/
def ofNumbers? : List Nat → Option DateRange
  | [year] => do months? (← Date.ofNumbers? year 1 1) 12
  | [year, month] => do months? (← Date.ofNumbers? year month 1) 1
  | [year, month, day] => do
    let since ← Date.ofNumbers? year month day
    let before ← since.next?
    pure ⟨since, before⟩
  | _ => none

/-- The year, month or day that a text such as `2024`, `2024-02` or `2024-02-29` names. -/
def ofText (text : String) : Except SpecProblem DateRange :=
  match (numbers? text).bind ofNumbers? with
  | some range => pure range
  | none => throw (.notPeriod text)

/-- The range between two days. -/
def ofEnds : List Date → Except SpecProblem DateRange
  | [since, before] => pure ⟨since, before⟩
  | ends => throw (.endCount ends.length)

end DateRange

end Mailroom
