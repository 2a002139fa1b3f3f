/-! UTF-8, written and read.

Bytes arrive in any order from the network, so reading is defined on every byte list: a
character is read where the bytes spell one, and each maximal piece that begins a character
and cannot be finished counts as one missing character. `lossy` puts U+FFFD in its place and
`strict?` refuses it. The reader is a machine fed one byte at a time. -/
namespace Mailroom

/-- Raw bytes, as they travel. -/
abbrev Bytes := List UInt8

namespace Utf8

/-- The bytes that spell a text. -/
def encode (s : String) : Bytes := s.toList.flatMap String.utf8EncodeChar

/-- Where the reader stands: between characters, or inside one with `due` bytes to come, the
next of them between `low` and `high`. -/
inductive State
  | between
  | inside (due : Nat) (low high : UInt8) (bits : Nat)

/-- A reader and what it has read, latest first; `none` stands for a missing character. -/
structure Reader where
  state : State
  read : List (Option Char)

/-- What a first byte announces. Surrogates, overlong forms and numbers past the last
character are ruled out by the range of the second byte. -/
def Reader.first (read : List (Option Char)) (b : UInt8) : Reader :=
  if b < 0x80 then ⟨.between, some (Char.ofNat b.toNat) :: read⟩
  else if b < 0xc2 then ⟨.between, none :: read⟩
  else if b < 0xe0 then ⟨.inside 1 0x80 0xbf (b.toNat - 0xc0), read⟩
  else if b = 0xe0 then ⟨.inside 2 0xa0 0xbf 0, read⟩
  else if b = 0xed then ⟨.inside 2 0x80 0x9f 0xd, read⟩
  else if b < 0xf0 then ⟨.inside 2 0x80 0xbf (b.toNat - 0xe0), read⟩
  else if b = 0xf0 then ⟨.inside 3 0x90 0xbf 0, read⟩
  else if b < 0xf4 then ⟨.inside 3 0x80 0xbf (b.toNat - 0xf0), read⟩
  else if b = 0xf4 then ⟨.inside 3 0x80 0x8f 4, read⟩
  else ⟨.between, none :: read⟩

/-- One byte more. A byte that cannot go on closes the piece before it and starts afresh. -/
def Reader.feed (r : Reader) (b : UInt8) : Reader :=
  match r.state with
  | .between => first r.read b
  | .inside due low high bits =>
    if low ≤ b ∧ b ≤ high then
      let bits := bits * 64 + (b.toNat - 0x80)
      if due ≤ 1 then ⟨.between, some (Char.ofNat bits) :: r.read⟩
      else ⟨.inside (due - 1) 0x80 0xbf bits, r.read⟩
    else first (none :: r.read) b

/-- What has been read once the bytes end. -/
def Reader.finish (r : Reader) : List (Option Char) :=
  match r.state with
  | .between => r.read.reverse
  | .inside .. => (none :: r.read).reverse

/-- The characters the bytes spell, with a `none` for each piece that spells none. -/
def decode (bytes : Bytes) : List (Option Char) :=
  (bytes.foldl Reader.feed ⟨.between, []⟩).finish

/-- The text of the bytes, with U+FFFD for what is not a character. -/
def lossy (bytes : Bytes) : String :=
  String.ofList ((decode bytes).map fun c => c.getD '\uFFFD')

/-- The text of the bytes, if they spell one. -/
def strict? (bytes : Bytes) : Option String :=
  let read := decode bytes
  if read.all Option.isSome then some (String.ofList (read.filterMap id)) else none

end Utf8

end Mailroom
