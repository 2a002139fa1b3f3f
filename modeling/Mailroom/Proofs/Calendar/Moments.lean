import Mathlib.Tactic.IntervalCases
import Mailroom.Calendar.Reading
import Mailroom.Proofs.Text.Numerals

/-! Moments as servers write them.

A reader takes its part from the front of a text and leaves the rest to the next one (`bind_read`), so a
moment is read part by part. The midnight that a server gives for a day is read as the midnight of that day,
in every year of the calendar (`readInternal?_midnight`). -/
namespace Mailroom

/-- The moment at which a day starts, on a clock that is not ahead. -/
def Timestamp.midnight (d : Date) : Timestamp where
  date := d
  hour := 0
  minute := 0
  second := 0
  offset := 0
  onClock := by decide
  inCalendar := by simp [isInCalendar]

namespace Date

/-- A year as it is written: behind a sign, or in digits only. -/
theorem yearText_cases (year : Int) :
    (year < 0 ∧ (yearText year).toList = '-' :: Decimal.padded 4 year.natAbs) ∨
      (9999 < year ∧ (yearText year).toList = '+' :: Decimal.padded 4 year.natAbs) ∨
      (0 ≤ year ∧ year ≤ 9999 ∧ (yearText year).toList = Decimal.padded 4 year.natAbs) := by
  unfold yearText
  dsimp only
  by_cases hneg : year < 0
  · rw [if_pos hneg]
    exact .inl ⟨hneg, by simp⟩
  · rw [if_neg hneg]
    by_cases hlong : 9999 < year
    · rw [if_pos hlong]
      exact .inr (.inl ⟨hlong, by simp⟩)
    · rw [if_neg hlong, String.toList_ofList]
      exact .inr (.inr ⟨by omega, by omega, rfl⟩)

end Date

namespace Calendar
variable {α β : Type} {cs rest : List Char} {width n : Nat}

/-! ### Part by part -/

/-- The next reader goes on with what is left. -/
theorem bind_read {r : Reader α} {next : α → Reader β} {a : α} (h : r cs = some (a, rest)) :
    (r >>= next) cs = next a rest := by
  show (r cs).bind (fun read => next read.1 read.2) = next a rest
  rw [h, Option.bind_some]

theorem skipBlanks_digits (hne : cs ≠ []) (hdigits : ∀ c ∈ cs, c.isDigit = true) :
    skipBlanks (cs ++ rest) = some ((), cs ++ rest) := by
  obtain ⟨c, cs, rfl⟩ := List.exists_cons_of_ne_nil hne
  have hc : Blank.isBlank c = false := Blank.isBlank_digit (hdigits c List.mem_cons_self)
  show some ((), (c :: (cs ++ rest)).dropWhile Blank.isBlank) = _
  rw [List.dropWhile_cons_of_neg (by simp [hc])]
  rfl

/-- Digits are taken up to the most that may be taken, or up to what is none. -/
theorem digits_run {least most : Nat} (hdigits : ∀ c ∈ cs, c.isDigit = true) (hleast : least ≤ cs.length)
    (hmost : cs.length = most ∨ cs.length ≤ most ∧ ∀ c ∈ rest.head?, c.isDigit = false) :
    digits least most (cs ++ rest) = some ((Nat.ofDigitChars 10 cs 0, cs.length), rest) := by
  have hmore : (rest.take (most - cs.length)).takeWhile Char.isDigit = [] := by
    obtain hfull | ⟨-, hstop⟩ := hmost
    · rw [← hfull, Nat.sub_self, List.take_zero, List.takeWhile_nil]
    · rw [← List.head?_eq_none_iff, List.head?_takeWhile, List.head?_take]
      split
      · rfl
      · exact Option.filter_eq_none_iff.mpr fun c hc => by simp [hstop c hc]
  have htaken : ((cs ++ rest).take most).takeWhile Char.isDigit = cs := by
    rw [List.take_append, List.take_of_length_le (by omega), List.takeWhile_append_of_pos hdigits, hmore,
      List.append_nil]
  simp only [digits, htaken]
  rw [if_neg (by omega), List.drop_left]

/-- A number that fills its width is taken, whatever follows. -/
theorem digits_padded {least : Nat} (h : n < 10 ^ width) (hwidth : 0 < width) (hleast : least ≤ width) :
    digits least width (Decimal.padded width n ++ rest) = some ((n, width), rest) := by
  have hlength := Decimal.length_padded h hwidth
  rw [digits_run (fun c => Decimal.isDigit_padded) (by omega) (.inl hlength),
    Decimal.ofDigitChars_padded, hlength]

theorem number_padded (h : n < 10 ^ width) (hwidth : 0 < width) :
    number width (Decimal.padded width n ++ rest) = some (n, rest) := by
  unfold number
  rw [bind_read (skipBlanks_digits (Decimal.padded_ne_nil width n) fun c => Decimal.isDigit_padded),
    bind_read (digits_padded h hwidth hwidth)]
  rfl

/-- A number of any length is taken up to what is no digit. -/
theorem allDigits_padded (hwidth : 0 < width) (hrest : ∀ c ∈ rest.head?, c.isDigit = false) :
    allDigits 1 (Decimal.padded width n ++ rest) = some ((n, (Decimal.padded width n).length), rest) := by
  have hlength := Decimal.le_length_padded width n
  rw [allDigits, digits_run (fun c => Decimal.isDigit_padded) (by omega) (.inr ⟨by simp, hrest⟩),
    Decimal.ofDigitChars_padded]

theorem get_read (cs : List Char) : (get : Reader (List Char)) cs = some (cs, cs) := rfl

theorem set_read (cs rest : List Char) : (set rest : Reader Unit) cs = some ((), rest) := rfl

theorem bind_pure_read {r : Reader α} (f : α → β) :
    (r >>= fun a => pure (f a)) cs = (r cs).map fun read => (f read.1, read.2) := by
  show (r cs).bind (fun read => some (f read.1, read.2)) = _
  cases r cs <;> rfl

theorem year_minus (cs : List Char) :
    year ('-' :: cs) = (allDigits 1 cs).map fun read => (-(read.1.1 : Int), read.2) := by
  have hskip : skipBlanks ('-' :: cs) = some ((), '-' :: cs) := rfl
  rw [year, bind_read hskip, bind_read (get_read _)]
  exact (bind_read (set_read _ _)).trans (bind_pure_read fun taken : Nat × Nat => -(taken.1 : Int))

theorem year_plus (cs : List Char) :
    year ('+' :: cs) = (allDigits 1 cs).map fun read => ((read.1.1 : Int), read.2) := by
  have hskip : skipBlanks ('+' :: cs) = some ((), '+' :: cs) := rfl
  rw [year, bind_read hskip, bind_read (get_read _)]
  exact (bind_read (set_read _ _)).trans (bind_pure_read fun taken : Nat × Nat => (taken.1 : Int))

/-- No digit is a sign. -/
theorem year_digits (hne : cs ≠ []) (hdigits : ∀ c ∈ cs, c.isDigit = true) :
    year (cs ++ rest) = (digits 1 4 (cs ++ rest)).map fun read => ((read.1.1 : Int), read.2) := by
  have hfirst : ∀ c tail, cs ++ rest = c :: tail → c.isDigit = true := by
    intro c tail heq
    obtain ⟨d, ds, rfl⟩ := List.exists_cons_of_ne_nil hne
    rw [← (List.cons.inj heq).1]
    exact hdigits d List.mem_cons_self
  rw [year, bind_read (skipBlanks_digits hne hdigits), bind_read (get_read _)]
  refine (congrFun ?_ _).trans (bind_pure_read fun taken : Nat × Nat => (taken.1 : Int))
  split
  next tail heq => exact absurd (hfirst _ _ heq) (by decide)
  next tail heq => exact absurd (hfirst _ _ heq) (by decide)
  next => rfl

/-- A year is taken behind its sign, or in four digits. -/
theorem year_yearText (y : Int) (hrest : ∀ c ∈ rest.head?, c.isDigit = false) :
    year ((Date.yearText y).toList ++ rest) = some (y, rest) := by
  obtain ⟨hneg, htext⟩ | ⟨hlong, htext⟩ | ⟨hlow, hhigh, htext⟩ := Date.yearText_cases y
  · have hvalue : -(y.natAbs : Int) = y := by omega
    rw [htext, List.cons_append, year_minus, allDigits_padded (by decide) hrest, Option.map_some, hvalue]
  · have hvalue : (y.natAbs : Int) = y := by omega
    rw [htext, List.cons_append, year_plus, allDigits_padded (by decide) hrest, Option.map_some, hvalue]
  · have hvalue : (y.natAbs : Int) = y := by omega
    rw [htext, year_digits (Decimal.padded_ne_nil _ _) fun c => Decimal.isDigit_padded,
      digits_padded (by omega) (by decide) (by decide), Option.map_some, hvalue]

theorem monthByName_monthName (d : Date) :
    monthByName (d.monthName.toList ++ rest) = some (d.month, rest) := by
  obtain ⟨-, -, hlow, hhigh, -, -⟩ := d.bounds
  rw [Date.monthName]
  generalize d.month = month at hlow hhigh
  interval_cases month <;> rfl

/-! ### Midnight -/

/-- The midnight of a day, as a server writes it. -/
theorem toList_midnight (d : Date) : (d.internalText ++ " 00:00:00 +0000").toList = Decimal.padded 2 d.day ++
    '-' :: (d.monthName.toList ++ '-' :: ((Date.yearText d.year).toList ++ " 00:00:00 +0000".toList)) := by
  simp [Date.internalText, Date.twoDigits]

theorem internalMoment_midnight (d : Date) :
    internalMoment (d.internalText ++ " 00:00:00 +0000").toList = some (.midnight d, []) := by
  have hbounds := d.bounds
  have hdate : Date.ofNumbers? d.year d.month d.day = some d := Date.ofNumbers?_eq_some.mpr ⟨rfl, rfl, rfl⟩
  have hmoment : Timestamp.ofNumbers? d 0 0 0 0 = some (.midnight d) := by
    rw [Timestamp.ofNumbers?, dif_pos (by decide), dif_pos (by simp [Timestamp.isInCalendar])]
    rfl
  have hclock : ∀ c ∈ " 00:00:00 +0000".toList.head?, c.isDigit = false := by
    have hfirst : " 00:00:00 +0000".toList.head? = some ' ' := by decide
    rw [hfirst]
    intro c hc
    cases hc
    rfl
  rw [toList_midnight, internalMoment, bind_read (number_padded (by omega) (by decide)), bind_read rfl,
    bind_read (monthByName_monthName d), bind_read rfl, bind_read (year_yearText d.year hclock), hdate]
  -- what is left is the clock, which shows the same on every day
  exact congrArg (Option.map fun t => (t, [])) hmoment

/-- The midnight of a day is read as that midnight. -/
theorem readInternal?_midnight (d : Date) :
    readInternal? (d.internalText ++ " 00:00:00 +0000") = some (.midnight d) := by
  have hfirst : ∀ c ∈ (d.internalText ++ " 00:00:00 +0000").toList.head?, Blank.isBlank c = false := by
    obtain ⟨c, cs, hday⟩ := List.exists_cons_of_ne_nil (Decimal.padded_ne_nil 2 d.day)
    have hdigit : c.isDigit = true := Decimal.isDigit_padded (hday ▸ List.mem_cons_self)
    rw [toList_midnight, hday]
    simpa using Blank.isBlank_digit hdigit
  have hlast : ∀ c ∈ (d.internalText ++ " 00:00:00 +0000").toList.getLast?, Blank.isBlank c = false := by
    have hclock : " 00:00:00 +0000".toList.getLast? = some '0' := by decide
    rw [String.toList_append, List.getLast?_append, hclock]
    intro c hc
    cases hc
    rfl
  rw [readInternal?, whole, Blank.trim_of_ends hfirst hlast, internalMoment_midnight]

end Calendar

end Mailroom
