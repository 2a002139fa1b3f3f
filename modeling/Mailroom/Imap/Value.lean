import Mailroom.Text.Ascii
import Mailroom.Text.Utf8

/-! The pieces of a response line.

Whatever a server says is made of words, numbers, strings and lists of these. Every response
is read into such values first, and understood afterwards. -/
namespace Mailroom

/-- One piece of a response line. -/
inductive Value
  /-- A bare word. -/
  | atom (word : String)
  | number (n : Nat)
  /-- A string between quotation marks, with its escapes undone. -/
  | quoted (bytes : Bytes)
  /-- A string whose length was announced. -/
  | literal (bytes : Bytes)
  /-- The word for what is not there. -/
  | absent
  /-- Values in parentheses. -/
  | list (items : List Value)
  /-- Values in square brackets. -/
  | bracketed (items : List Value)
  deriving BEq, Repr, Inhabited

namespace Value

/-- The text of a word or string. -/
def text? : Value → Option String
  | atom word => some word
  | quoted bytes => some (Utf8.lossy bytes)
  | literal bytes => some (Utf8.lossy bytes)
  | _ => none

def number? : Value → Option Nat
  | number n => some n
  | _ => none

def items? : Value → Option (List Value)
  | list items => some items
  | _ => none

/-- Whether it is the given word, in any letter case. -/
def isAtom (name : String) : Value → Bool
  | atom word => Ascii.same word name
  | _ => false

end Value

end Mailroom
