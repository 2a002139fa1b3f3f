import Mailroom.Calendar.Date
import Mailroom.Toml.Text

/-! Reading a TOML document: numbers, dates and times.

A word that begins with a digit or a sign is a date or a time if it can be read as one, or
else a float, or else a whole number. -/
namespace Mailroom.Toml.Number
open Scan

/-- A value that is neither text nor composed. -/
inductive Scalar
  | integer (n : Int)
  | float
  | boolean (b : Bool)
  | moment
  deriving DecidableEq, Repr

/-! ### Whole numbers -/

/-- Digits with single underscores between them, without those. At most `limit` are read
after the first. -/
def digitsRest (p : Char → Bool) : Nat → Reader (List Char)
  | 0 => pure []
  | limit + 1 => do
    match ← peek with
    | some '_' => do
      sign '_'
      let d ← oneOf p
      pure (d :: (← digitsRest p limit))
    | some c =>
      if p c then do
        let d ← oneOf p
        pure (d :: (← digitsRest p limit))
      else pure []
    | none => pure []

/-- Digits of which there is one at least. -/
def digits (p : Char → Bool) : Reader (List Char) := do
  let d ← oneOf p
  let ds ← fun cs => digitsRest p cs.length cs
  pure (d :: ds)

/-- Digits that begin with a zero only if that is all. -/
def plainDigits : Reader (List Char) := do
  match ← peek with
  | some '0' => do
    sign '0'
    pure ['0']
  | _ => digits Char.isDigit

/-- Whether there is a minus sign. A plus sign is left out. -/
def negative : Reader Bool := do
  match ← peek with
  | some '-' => do
    sign '-'
    pure true
  | some '+' => do
    sign '+'
    pure false
  | _ => pure false

/-- A number of 64 bits, one of them for the sign. -/
def word (n : Int) : Reader Int :=
  if Int64.minValue.toInt ≤ n ∧ n ≤ Int64.maxValue.toInt then pure n else failure

/-- A number in another base than ten, after its zero. -/
def based (letter : Char) (base : Nat) (p : Char → Bool) : Reader Int := do
  signs ['0', letter]
  let ds ← digits p
  word (Text.spelled base ds : Nat)

def decimal : Reader Int := do
  let minus ← negative
  let ds ← plainDigits
  let n : Nat := Text.spelled 10 ds
  word (if minus then -(n : Int) else n)

def integer : Reader Int := fun cs =>
  match cs with
  | '0' :: 'x' :: _ => based 'x' 16 Text.isHex cs
  | '0' :: 'o' :: _ => based 'o' 8 (fun c => '0' ≤ c && c ≤ '7') cs
  | '0' :: 'b' :: _ => based 'b' 2 (fun c => c == '0' || c == '1') cs
  | cs => decimal cs

/-! ### Floats -/

/-- The digits after the point, if there is one. -/
def fraction : Reader (Option (List Char)) := optional do
  sign '.'
  digits Char.isDigit

/-- The exponent, if there is one. -/
def exponent : Reader (Option Int) := optional do
  let _ ← oneOf fun c => c == 'e' || c == 'E'
  let minus ← negative
  let ds ← digits Char.isDigit
  let n : Nat := Text.spelled 10 ds
  pure (if minus then -(n : Int) else n)

/-- Whether `m * 10 ^ e` is too large for a float of 64 bits, rounded to the nearest. -/
def overflows (m : Nat) (e : Int) : Bool :=
  let bound := Nat.pow 2 1024 - Nat.pow 2 970
  if m = 0 then false
  else
    let width := (Nat.toDigits 10 m).length
    if width + e < 300 then false
    else if 400 < width + e then true
    else if 0 ≤ e then bound ≤ m * Nat.pow 10 e.toNat
    else bound * Nat.pow 10 (-e).toNat ≤ m

/-- A float with a point or an exponent. It must not be too large, but may be too far below
zero. -/
def pointed : Reader Unit := do
  let minus ← negative
  let whole ← plainDigits
  let fraction ← fraction
  let exponent ← exponent
  if fraction.isNone && exponent.isNone then failure
  let after := fraction.getD []
  let m := Text.spelled 10 (whole ++ after)
  if !minus && overflows m (exponent.getD 0 - (after.length : Nat)) then failure

/-- A float, of which only that it is one matters. -/
def float : Reader Unit := pointed <|> do
  let _ ← negative
  signs ['i', 'n', 'f'] <|> signs ['n', 'a', 'n']

/-! ### Dates and times -/

/-- A number of exactly `width` digits between two bounds. -/
def between (width least most : Nat) : Reader Nat := do
  let ds ← exactly width Char.isDigit
  let n := Text.spelled 10 ds
  if least ≤ n ∧ n ≤ most then pure n else failure

def date : Reader Unit := do
  let year ← between 4 0 9999
  sign '-'
  let month ← between 2 1 12
  sign '-'
  let _ ← between 2 1 (Date.daysIn year month)

def time : Reader Unit := do
  let _ ← between 2 0 23
  sign ':'
  let _ ← between 2 0 59
  sign ':'
  let _ ← between 2 0 60
  let _ ← optional do
    sign '.'
    someOf Char.isDigit

/-- The offset of a clock. -/
def offset : Reader Unit := do
  let c ← oneOf fun c => c == 'Z' || c == 'z' || c == '+' || c == '-'
  if c == '+' || c == '-' then
    let _ ← between 2 0 23
    sign ':'
    let _ ← between 2 0 59

/-- A date, with a time of day or without. -/
def datedMoment : Reader Unit := do
  date
  let _ ← optional do
    let _ ← oneOf fun c => c == 'T' || c == 't' || c == ' '
    time
    optional offset

/-- A date with a time of day, or either alone. -/
def moment : Reader Unit := datedMoment <|> time

/-- What is read once `r` has succeeded. -/
def meaning (s : Scalar) (r : Reader Unit) : Reader Scalar := do
  r
  pure s

/-- A value that begins with a digit or a sign. -/
def number : Reader Scalar :=
  meaning .moment moment <|> meaning .float float <|> Scalar.integer <$> integer

/-- A value that is neither text nor composed. -/
def scalar : Reader Scalar := do
  match ← peek with
  | some 't' => meaning (.boolean true) (signs ['t', 'r', 'u', 'e'])
  | some 'f' => meaning (.boolean false) (signs ['f', 'a', 'l', 's', 'e'])
  | some 'i' => meaning .float (signs ['i', 'n', 'f'])
  | some 'n' => meaning .float (signs ['n', 'a', 'n'])
  | some c => if c.isDigit || c == '+' || c == '-' then number else failure
  | none => failure

end Mailroom.Toml.Number
