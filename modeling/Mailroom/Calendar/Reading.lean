import Mailroom.Calendar.Timestamp
import Mailroom.Text.Blank

/-! Dates and moments, read from text.

Four forms are read: `2024-01-31` as people write it in rule files, the same with time and
offset, `01-Feb-2024 10:00:00 +0100` as servers report it, and the form of a message's Date
header. Blanks in front of the numbers of a date are skipped in all of them. -/
namespace Mailroom.Calendar
open Blank

/-- A reader takes what it needs from the front, or fails. -/
abbrev Reader := StateT (List Char) Option

def skipBlanks : Reader Unit := modify trimStart

/-- Leaves out blanks, of which there has to be one. -/
def someBlank : Reader Unit := fun cs =>
  match cs with
  | c :: rest => if isBlank c then some ((), trimStart rest) else none
  | [] => none

def sign (expected : Char) : Reader Unit := fun cs =>
  match cs with
  | c :: rest => if c = expected then some ((), rest) else none
  | [] => none

/-- Takes at least `least` and at most `most` digits, with how many there were. -/
def digits (least most : Nat) : Reader (Nat × Nat) := fun cs =>
  let taken := (cs.take most).takeWhile Char.isDigit
  if taken.length < least then none
  else some ((Nat.ofDigitChars 10 taken 0, taken.length), cs.drop taken.length)

/-- Takes any number of digits, but at least `least`, with how many there were. -/
def allDigits (least : Nat) : Reader (Nat × Nat) := fun cs => digits least cs.length cs

/-- A number of at most `width` digits, after blanks. -/
def number (width : Nat) : Reader Nat := do
  skipBlanks
  let (n, _) ← digits 1 width
  pure n

/-- A year of at most four digits, or of any length after a sign. -/
def year : Reader Int := do
  skipBlanks
  match ← get with
  | '-' :: rest =>
    set rest
    let (n, _) ← allDigits 1
    pure (-(n : Int))
  | '+' :: rest =>
    set rest
    let (n, _) ← allDigits 1
    pure (n : Int)
  | _ =>
    let (n, _) ← digits 1 4
    pure (n : Int)

/-- The place of a three-letter name in a list, in any case of its letters. -/
def named (names : List String) : Reader Nat := fun cs =>
  let word := (cs.take 3).map Char.toLower
  match names.findIdx? fun name => name.toList.map Char.toLower == word with
  | some i => some (i, cs.drop 3)
  | none => none

def monthByName : Reader Nat := do
  let i ← named Date.monthNames
  pure (i + 1)

/-- Lifts an answer that may be missing. -/
def ofOption {α : Type} (x : Option α) : Reader α := StateT.lift x

def offsetSign (minus : List Char) : Reader Int := fun cs =>
  match cs with
  | c :: rest => if c = '+' then some (1, rest) else if minus.contains c then some (-1, rest) else none
  | [] => none

/-- An offset in minutes: a sign, two digits, `between`, and two digits below 60. -/
def offset (minus : List Char) (between : Reader Unit) : Reader Int := do
  let direction ← offsetSign minus
  let (hours, _) ← digits 2 2
  between
  let (minutes, _) ← digits 2 2
  if minutes < 60 then pure (direction * (hours * 60 + minutes : Nat)) else failure

/-- What a reader takes from a whole text, without anything left over. -/
def whole {α : Type} (r : Reader α) (s : String) : Option α :=
  match r s.toList with
  | some (a, []) => some a
  | _ => none

/-! ### Dates by number -/

/-- Year, month and day in numbers with dashes between. -/
def dashedDate : Reader Date := do
  let y ← year
  sign '-'
  let m ← number 2
  sign '-'
  let d ← number 2
  ofOption (Date.ofNumbers? y m d)

/-- The date that a text such as `2024-01-31` names. -/
def readDate? (s : String) : Option Date := whole dashedDate (trim s)

/-- A date, and after a `T` time and offset in two digits each. -/
def dashedMoment : Reader Timestamp := do
  let date ← dashedDate
  sign 'T'
  let (hour, _) ← digits 2 2
  sign ':'
  let (minute, _) ← digits 2 2
  sign ':'
  let (second, _) ← digits 2 2
  let ahead ← offset ['-'] (sign ':')
  ofOption (Timestamp.ofNumbers? date hour minute second ahead)

/-- The moment that a text such as `2024-02-02T10:30:00+01:00` names. -/
def readMoment? (s : String) : Option Timestamp := whole dashedMoment s

/-! ### Moments as servers report them -/

/-- Colons and blanks, as many as there are. -/
def skipColons : Reader Unit := modify fun cs => cs.dropWhile fun c => c == ':' || isBlank c

/-- Day, month and year with dashes, time and offset. -/
def internalMoment : Reader Timestamp := do
  let d ← number 2
  sign '-'
  let m ← monthByName
  sign '-'
  let y ← year
  skipBlanks
  let hour ← number 2
  sign ':'
  let minute ← number 2
  sign ':'
  let second ← number 2
  skipBlanks
  let ahead ← offset ['-', '\u2212'] skipColons
  let date ← ofOption (Date.ofNumbers? y m d)
  ofOption (Timestamp.ofNumbers? date hour minute second ahead)

/-- The moment that a text such as `01-Feb-2024 10:00:00 +0100` names. -/
def readInternal? (s : String) : Option Timestamp := whole internalMoment (trim s)

/-! ### Moments in headers -/

/-- The year of two digits lies between 1950 and 2049, of three digits after 1900. -/
def fullYear (digits n : Nat) : Nat :=
  if digits = 2 then (if n < 50 then n + 2000 else n + 1900)
  else if digits = 3 then n + 1900
  else n

/-- The offsets, in hours, of the zones that have a name. -/
def zones : List (String × Int) :=
  [("gmt", 0), ("ut", 0), ("z", 0), ("edt", -4), ("est", -5), ("cdt", -5), ("cst", -6), ("mdt", -6),
    ("mst", -7), ("pdt", -7), ("pst", -8)]

/-- Whether a letter stands for a zone. All do but `j`, and none says which. -/
def isMilitaryZone (c : Char) : Bool := 'a' ≤ c && c ≤ 'y' && c != 'j'

/-- An offset in minutes, as a number or by the name of a zone. -/
def headerOffset : Reader Int := do
  let name := (← get).takeWhile Char.isAlpha
  if name.isEmpty then offset ['-'] (pure ())
  else
    modify (·.drop name.length)
    let small := name.map Char.toLower
    match zones.find? fun zone => zone.1.toList == small with
    | some (_, hours) => pure (hours * 60)
    | none =>
      match small with
      | [c] => if isMilitaryZone c then pure 0 else failure
      | _ => failure

/-- What follows a remark of which `depth` brackets are open. A backslash takes the next
character along. -/
def afterRemark (depth : Nat) (escaped : Bool) : List Char → Option (List Char)
  | [] => none
  | c :: rest =>
    if escaped then afterRemark depth false rest
    else if c = '\\' then afterRemark depth true rest
    else if c = '(' then afterRemark (depth + 1) false rest
    else if c = ')' then
      if depth ≤ 1 then some rest else afterRemark (depth - 1) false rest
    else afterRemark depth false rest

/-- What follows the remarks in brackets, as many as there are but at most `limit`. -/
def afterRemarks : Nat → List Char → List Char
  | 0, cs => cs
  | limit + 1, cs =>
    match trimStart cs with
    | '(' :: rest =>
      match afterRemark 1 false rest with
      | some rest => afterRemarks limit rest
      | none => cs
    | _ => cs

/-- The day of the week in front of a header date, if it is there. -/
def headerWeekday : Reader (Option Nat) := do
  match named Date.weekdayNames (← get) with
  | some (i, rest) =>
    set rest
    sign ','
    pure (some i)
  | none => pure none

/-- The seconds of a header time, which may be missing. -/
def headerSecond : Reader Nat := do
  match trimStart (← get) with
  | ':' :: rest =>
    set rest
    let (n, _) ← digits 2 2
    pure n
  | _ => pure 0

/-- The moment of a Date header. -/
def headerMoment : Reader Timestamp := do
  skipBlanks
  let weekday ← headerWeekday
  skipBlanks
  let (d, _) ← digits 1 2
  someBlank
  let m ← monthByName
  someBlank
  let (y, length) ← allDigits 2
  someBlank
  let (hour, _) ← digits 2 2
  skipBlanks
  sign ':'
  skipBlanks
  let (minute, _) ← digits 2 2
  let second ← headerSecond
  someBlank
  let ahead ← headerOffset
  modify fun cs => afterRemarks (cs.length + 1) cs
  let date ← ofOption (Date.ofNumbers? (fullYear length y) m d)
  if weekday.all (· == date.weekday) then
    ofOption (Timestamp.ofNumbers? date hour minute second ahead)
  else failure

/-- The moment that a Date header names. -/
def readHeader? (s : String) : Option Timestamp := whole headerMoment (trim s)

end Mailroom.Calendar
