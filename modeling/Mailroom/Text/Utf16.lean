import Mailroom.Text.Utf8

/-! UTF-16, written and read.

Reading is defined on every byte list. A surrogate without its partner, and a last byte
without one, each give U+FFFD. A byte order mark in front is dropped, and may announce the
other byte order or UTF-8. -/
namespace Mailroom.Utf16

/-- The high byte and the low byte of a unit. -/
def unitBytes (u : Nat) : Bytes := [UInt8.ofNat (u / 256), UInt8.ofNat (u % 256)]

/-- The units of one character. -/
def charUnits (c : Char) : List Nat :=
  let n := c.toNat
  if n < 0x10000 then [n]
  else [0xd800 + (n - 0x10000) / 0x400, 0xdc00 + (n - 0x10000) % 0x400]

/-- The bytes of the characters, the high byte of each unit first. -/
def encode (cs : List Char) : Bytes := (cs.flatMap charUnits).flatMap unitBytes

/-- The units of a byte list, and whether a byte is left over. `order` joins two bytes. -/
def units (order : UInt8 → UInt8 → Nat) : Bytes → List Nat × Bool
  | [] => ([], false)
  | [_] => ([], true)
  | a :: b :: rest =>
    let tail := units order rest
    (order a b :: tail.1, tail.2)

/-- Whether a unit is the first half of a pair. -/
def isHigh (u : Nat) : Bool := 0xd800 ≤ u && u < 0xdc00

/-- Whether a unit is the second half of a pair. -/
def isLow (u : Nat) : Bool := 0xdc00 ≤ u && u < 0xe000

/-- The character two surrogates stand for. -/
def joined (high low : Nat) : Char :=
  Char.ofNat (0x10000 + (high - 0xd800) * 0x400 + (low - 0xdc00))

/-- The characters of the units after an unfinished pair, if there is one. A first half at
the very end and a byte left over make one missing character between them. -/
def chars (leftOver : Bool) : Option Nat → List Nat → List Char
  | none, [] => if leftOver then ['\uFFFD'] else []
  | some _, [] => ['\uFFFD']
  | half, u :: rest =>
    let fresh :=
      if isHigh u then chars leftOver (some u) rest
      else (if isLow u then '\uFFFD' else Char.ofNat u) :: chars leftOver none rest
    match half with
    | none => fresh
    | some high => if isLow u then joined high u :: chars leftOver none rest else '\uFFFD' :: fresh

def bigEndian (a b : UInt8) : Nat := a.toNat * 256 + b.toNat

def littleEndian (a b : UInt8) : Nat := b.toNat * 256 + a.toNat

/-- The characters of bytes in the given order. -/
def charsOf (order : UInt8 → UInt8 → Nat) (bytes : Bytes) : List Char :=
  let split := units order bytes
  chars split.2 none split.1

/-- The characters the bytes spell, high byte first unless a byte order mark says
otherwise. -/
def decode : Bytes → List Char
  | 0xfe :: 0xff :: rest => charsOf bigEndian rest
  | 0xff :: 0xfe :: rest => charsOf littleEndian rest
  | 0xef :: 0xbb :: 0xbf :: rest => (Utf8.lossy rest).toList
  | bytes => charsOf bigEndian bytes

end Mailroom.Utf16
