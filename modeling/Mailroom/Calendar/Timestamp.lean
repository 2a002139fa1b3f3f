import Mailroom.Calendar.Date

/-! Moments of a day, with the offset of the clock that showed them.

A moment exists if its date is still in the calendar once the offset is taken away. A leap
second is kept as second 60. -/
namespace Mailroom

/-- Whether minute `minute` of a date, on a clock `offset` minutes ahead, lies in the
calendar. -/
def Timestamp.isInCalendar (date : Date) (minute : Nat) (offset : Int) : Bool :=
  let universal := (minute : Int) - offset
  if universal < 0 then !(date.year == Date.firstYear && date.month == 1 && date.day == 1)
  else if universal < 1440 then true
  else !(date.year == Date.lastYear && date.month == 12 && date.day == 31)

/-- A date and a time of day on a clock that is `offset` minutes ahead. -/
structure Timestamp where
  date : Date
  hour : Nat
  minute : Nat
  second : Nat
  offset : Int
  onClock : hour < 24 ∧ minute < 60 ∧ second ≤ 60 ∧ -1440 < offset ∧ offset < 1440
  inCalendar : Timestamp.isInCalendar date (hour * 60 + minute) offset = true
  deriving DecidableEq

namespace Timestamp

/-- The moment with the given numbers, if there is one. -/
def ofNumbers? (date : Date) (hour minute second : Nat) (offset : Int) : Option Timestamp :=
  if h : hour < 24 ∧ minute < 60 ∧ second ≤ 60 ∧ -1440 < offset ∧ offset < 1440 then
    if h' : isInCalendar date (hour * 60 + minute) offset = true then
      some ⟨date, hour, minute, second, offset, h, h'⟩
    else none
  else none

/-- The moment with date, time and offset in numbers, such as `2024-02-02T10:30:00+01:00`. -/
def text (t : Timestamp) : String :=
  let sign := if t.offset < 0 then "-" else "+"
  let ahead := t.offset.natAbs
  t.date.text ++ "T" ++ Date.twoDigits t.hour ++ ":" ++ Date.twoDigits t.minute ++ ":" ++
    Date.twoDigits t.second ++ sign ++ Date.twoDigits (ahead / 60) ++ ":" ++ Date.twoDigits (ahead % 60)

end Timestamp

end Mailroom
