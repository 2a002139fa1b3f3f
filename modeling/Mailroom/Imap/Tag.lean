import Mailroom.Text.Decimal

/-! Tags, by which completions are matched with commands. -/
namespace Mailroom

/-- A source of tags: a letter, and the number of the next tag. -/
structure TagSource where
  letter : Char := 'A'
  next : UInt32 := 1
  deriving DecidableEq

namespace TagSource

/-- The tag with the given number, in four digits or more. -/
def tag (letter : Char) (n : UInt32) : String :=
  String.ofList (letter :: Decimal.padded 4 n.toNat)

def current (s : TagSource) : String := tag s.letter s.next

/-- The source after one tag more. The number starts over after the last of 32 bits. -/
def advance (s : TagSource) : TagSource := { s with next := s.next + 1 }

/-- The next `n` tags. -/
def upcoming (s : TagSource) : Nat → List String
  | 0 => []
  | n + 1 => s.current :: upcoming s.advance n

end TagSource

end Mailroom
