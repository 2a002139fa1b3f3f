import Mailroom.Text.Quoted.Table

/-! Text shown between quotation marks.

Messages that quote a user's text show it so that what cannot be seen can be told: quotation
marks and backslashes are escaped, and characters without a printed form appear by number. -/
namespace Mailroom.Quoted

/-- Whether a character has no printed form of its own. -/
def isUnprinted (c : Char) : Bool :=
  let n := c.toNat
  n < 0x20 || n == 0x7f || unprinted.any fun range => range.1 ≤ n && n ≤ range.2

/-- A character as it stands between quotation marks. -/
def escape (c : Char) : List Char :=
  if c = '"' then ['\\', '"']
  else if c = '\\' then ['\\', '\\']
  else if c = '\t' then ['\\', 't']
  else if c = '\r' then ['\\', 'r']
  else if c = '\n' then ['\\', 'n']
  else if c = '\x00' then ['\\', '0']
  else if isUnprinted c then
    ['\\', 'u', '\x7b'] ++ Nat.toDigits 16 c.toNat ++ ['\x7d']
  else [c]

/-- The text between quotation marks. -/
def quote (s : String) : String :=
  String.ofList ('"' :: s.toList.flatMap escape ++ ['"'])

end Mailroom.Quoted
