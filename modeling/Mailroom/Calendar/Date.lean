import Mailroom.Text.Decimal

/-! Calendar dates.

The calendar is the Gregorian one carried on to all years, with a year zero, and it ends on
both sides: dates exist from -262143-01-01 to +262142-12-31. `Date` holds only dates that
exist, in the order of `rank`. -/
namespace Mailroom

def Date.firstYear : Int := -262143

def Date.lastYear : Int := 262142

/-- Whether a year has a 29 February. -/
def Date.isLeap (year : Int) : Bool := year % 4 == 0 && (year % 100 != 0 || year % 400 == 0)

def Date.daysIn (year : Int) (month : Nat) : Nat :=
  if month = 2 then (if isLeap year then 29 else 28)
  else if month = 4 ∨ month = 6 ∨ month = 9 ∨ month = 11 then 30
  else 31

/-- Whether there is such a date. -/
def Date.exists? (year : Int) (month day : Nat) : Bool :=
  firstYear ≤ year && year ≤ lastYear && 1 ≤ month && month ≤ 12 && 1 ≤ day && day ≤ daysIn year month

/-- A date of the calendar. -/
structure Date where
  year : Int
  month : Nat
  day : Nat
  valid : Date.exists? year month day = true
  deriving DecidableEq

namespace Date

/-- The date with the given numbers, if there is one. -/
def ofNumbers? (year : Int) (month day : Nat) : Option Date :=
  if h : exists? year month day = true then some ⟨year, month, day, h⟩ else none

instance : Inhabited Date := ⟨⟨1970, 1, 1, rfl⟩⟩

/-- A number that grows with the date: every month counts as 31 days. -/
def rank (d : Date) : Int := d.year * 372 + (d.month - 1 : Nat) * 31 + (d.day - 1 : Nat)

instance : LT Date := ⟨fun a b => a.rank < b.rank⟩
instance : LE Date := ⟨fun a b => a.rank ≤ b.rank⟩
instance (a b : Date) : Decidable (a < b) := inferInstanceAs (Decidable (a.rank < b.rank))
instance (a b : Date) : Decidable (a ≤ b) := inferInstanceAs (Decidable (a.rank ≤ b.rank))

/-- The first day of the year, month or day that follows a date. -/
def next? (d : Date) : Option Date :=
  if d.day < daysIn d.year d.month then ofNumbers? d.year d.month (d.day + 1)
  else if d.month < 12 then ofNumbers? d.year (d.month + 1) 1
  else ofNumbers? (d.year + 1) 1 1

/-- The same day some months later, or the last day of that month if it is shorter. -/
def addMonths? (d : Date) (months : Nat) : Option Date :=
  let total := d.month - 1 + months
  let year := d.year + (total / 12 : Nat)
  let month := total % 12 + 1
  ofNumbers? year month (min d.day (daysIn year month))

/-- The number of days since 1 March of year zero. -/
def dayNumber (d : Date) : Int :=
  let year := if d.month ≤ 2 then d.year - 1 else d.year
  let month := (d.month + 9) % 12
  365 * year + year / 4 - year / 100 + year / 400 + ((153 * month + 2) / 5 : Nat) + (d.day - 1 : Nat)

/-- The date with the given number, counted from 1 March of year zero. -/
def ofDayNumber? (n : Int) : Option Date :=
  let era := n / 146097
  let ofEra := (n % 146097).toNat
  let yearOfEra := (ofEra - ofEra / 1460 + ofEra / 36524 - ofEra / 146096) / 365
  let ofYear := ofEra - (365 * yearOfEra + yearOfEra / 4 - yearOfEra / 100)
  let monthFromMarch := (5 * ofYear + 2) / 153
  let day := ofYear - (153 * monthFromMarch + 2) / 5 + 1
  let month := if monthFromMarch < 10 then monthFromMarch + 3 else monthFromMarch - 9
  let year := (yearOfEra : Int) + era * 400 + (if month ≤ 2 then 1 else 0)
  ofNumbers? year month day

def minusDays? (d : Date) (days : Nat) : Option Date := ofDayNumber? (d.dayNumber - days)

/-- The day of the week, counted from Sunday. -/
def weekday (d : Date) : Nat := ((d.dayNumber + 3) % 7).toNat

def monthNames : List String :=
  ["Jan", "Feb", "Mar", "Apr", "May", "Jun", "Jul", "Aug", "Sep", "Oct", "Nov", "Dec"]

def weekdayNames : List String := ["Sun", "Mon", "Tue", "Wed", "Thu", "Fri", "Sat"]

def monthName (d : Date) : String := monthNames.getD (d.month - 1) ""

def weekdayName (d : Date) : String := weekdayNames.getD d.weekday ""

/-- A year as it is written: four digits, and a sign where those do not do. -/
def yearText (year : Int) : String :=
  let ds := String.ofList (Decimal.padded 4 year.natAbs)
  if year < 0 then "-" ++ ds else if 9999 < year then "+" ++ ds else ds

def twoDigits (n : Nat) : String := String.ofList (Decimal.padded 2 n)

/-- The date with year, month and day in numbers, such as `2024-01-31`. -/
def text (d : Date) : String := yearText d.year ++ "-" ++ twoDigits d.month ++ "-" ++ twoDigits d.day

/-- The date as a search names it, such as `1-Feb-2024`. -/
def searchText (d : Date) : String :=
  Decimal.text d.day ++ "-" ++ d.monthName ++ "-" ++ yearText d.year

/-- The date as a server reports it, such as `01-Feb-2024`. -/
def internalText (d : Date) : String :=
  twoDigits d.day ++ "-" ++ d.monthName ++ "-" ++ yearText d.year

/-- The date as a header gives it, such as `Thu, 1 Feb 2024`. -/
def headerText (d : Date) : String :=
  d.weekdayName ++ ", " ++ Decimal.text d.day ++ " " ++ d.monthName ++ " " ++ yearText d.year

/-! ### What the numbers say -/

theorem ofNumbers?_eq_some {year : Int} {month day : Nat} {d : Date} :
    ofNumbers? year month day = some d ↔ d.year = year ∧ d.month = month ∧ d.day = day := by
  obtain ⟨y, m, n, h⟩ := d
  unfold ofNumbers?
  split
  · simp only [Option.some.injEq, mk.injEq]
    constructor <;> (rintro ⟨rfl, rfl, rfl⟩; exact ⟨rfl, rfl, rfl⟩)
  · next h' =>
    constructor
    · intro e
      cases e
    · rintro ⟨rfl, rfl, rfl⟩
      exact absurd h h'

theorem daysIn_le (year : Int) (month : Nat) : daysIn year month ≤ 31 := by
  unfold daysIn
  split
  · split <;> decide
  · split <;> decide

theorem bounds (d : Date) :
    firstYear ≤ d.year ∧ d.year ≤ lastYear ∧ 1 ≤ d.month ∧ d.month ≤ 12 ∧ 1 ≤ d.day ∧ d.day ≤ 31 := by
  have h := d.valid
  simp only [exists?, Bool.and_eq_true, decide_eq_true_eq] at h
  have := daysIn_le d.year d.month
  omega

end Date

end Mailroom
