import Mailroom.Text.Decimal

/-! Sizes as people read them.

A size is shown in the largest unit of which there is at least one, with one decimal. Before
that it is held to 53 binary digits, as measuring instruments of 64 bits hold it; both times
a half goes to the even neighbour. -/
namespace Mailroom.Size

/-- The sum of two sizes, as long as 64 bits can count it. -/
def add? (a b : Nat) : Option Nat := if a + b < UInt64.size then some (a + b) else none

/-- The quotient, rounded to the nearest whole number. A half goes to the even neighbour. -/
def roundDiv (n d : Nat) : Nat :=
  let quotient := n / d
  let twice := 2 * (n % d)
  if twice < d then quotient
  else if d < twice then quotient + 1
  else quotient + quotient % 2

/-- The nearest number with at most 53 binary digits before its zeros. -/
def nearest (n : Nat) : Nat :=
  let step := Nat.pow 2 (n.log2 + 1 - 53)
  roundDiv n step * step

/-- A number of tenths with its point. -/
def tenthsText (tenths : Nat) : String :=
  Decimal.text (tenths / 10) ++ "." ++ Decimal.text (tenths % 10)

/-- A size in one of the given units. The first is `scale` bytes and each is 1024 times the
one before it. -/
def inUnits (size scale : Nat) : List String → String
  | [] => Decimal.text size
  | unit :: rest =>
    if rest.isEmpty || size < scale * 1024 then tenthsText (roundDiv (size * 10) scale) ++ " " ++ unit
    else inUnits size (scale * 1024) rest

/-- A number of bytes as people read it. -/
def text (bytes : Nat) : String :=
  if bytes < 1024 then Decimal.text bytes ++ " B"
  else inUnits (nearest bytes) 1024 ["KB", "MB", "GB", "TB"]

end Mailroom.Size
