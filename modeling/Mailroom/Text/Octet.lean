import Mailroom.Text.Utf8

/-! The bytes that mean something on the wire. -/
namespace Mailroom.Octet

@[match_pattern] abbrev cr : UInt8 := 0x0d

@[match_pattern] abbrev lf : UInt8 := 0x0a

@[match_pattern] abbrev space : UInt8 := 0x20

@[match_pattern] abbrev quote : UInt8 := 0x22

@[match_pattern] abbrev percent : UInt8 := 0x25

@[match_pattern] abbrev openParen : UInt8 := 0x28

@[match_pattern] abbrev closeParen : UInt8 := 0x29

@[match_pattern] abbrev star : UInt8 := 0x2a

@[match_pattern] abbrev plus : UInt8 := 0x2b

@[match_pattern] abbrev openBracket : UInt8 := 0x5b

@[match_pattern] abbrev backslash : UInt8 := 0x5c

@[match_pattern] abbrev closeBracket : UInt8 := 0x5d

@[match_pattern] abbrev openBrace : UInt8 := 0x7b

@[match_pattern] abbrev closeBrace : UInt8 := 0x7d

abbrev crlf : Bytes := [cr, lf]

def isDigit (b : UInt8) : Bool := 0x30 ≤ b && b ≤ 0x39

/-- The character with the number of a byte. -/
def char (b : UInt8) : Char := Char.ofNat b.toNat

/-- The number that a run of digits spells, if there is one and it is below `bound`. -/
def number? (bound : Nat) (ds : Bytes) : Option Nat :=
  if ds.isEmpty || !ds.all isDigit then none
  else some (Nat.ofDigitChars 10 (ds.map char) 0) |>.filter (· < bound)

/-- The bytes of a text in ASCII. -/
def ofText (s : String) : Bytes := Utf8.encode s

end Mailroom.Octet
