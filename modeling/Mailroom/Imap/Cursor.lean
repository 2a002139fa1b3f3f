import Mailroom.Imap.Fault
import Mailroom.Imap.Value

/-! A place in a response line, and the readers that move it.

A `Cursor` holds how many bytes have been passed and which are left. Readers only ever move
it forward, and a reader that fails says where it stood. Values nest at most `maxDepth`
deep. -/
namespace Mailroom

/-- A place in a line. -/
structure Cursor where
  position : Nat
  rest : Bytes
  deriving DecidableEq

namespace Cursor

/-- A reader takes what it needs from the front of a line, or finds a fault. -/
abbrev Reader (α : Type) := StateT Cursor (Except Fault) α

/-- The front of a line. -/
def ofBytes (line : Bytes) : Cursor := ⟨0, line⟩

/-- The place after `n` bytes more. -/
def skip (c : Cursor) (n : Nat) : Cursor := ⟨c.position + n, c.rest.drop n⟩

/-- Whether the line ends here. -/
def atEnd (c : Cursor) : Bool :=
  match c.rest with
  | [] => true
  | b :: _ => b == Octet.cr || b == Octet.lf

def fail {α : Type} (reason : Reason) : Reader α := fun c =>
  .error (.malformed c.position reason)

def isNext (byte : UInt8) (c : Cursor) : Bool := c.rest.head? == some byte

/-- Passes `byte` if it is next, and says whether it was. -/
def eat (byte : UInt8) : Reader Bool := fun c =>
  if c.isNext byte then .ok (true, c.skip 1) else .ok (false, c)

/-- Passes `byte`, which has to be next. -/
def expect (byte : UInt8) : Reader Unit := fun c =>
  if c.isNext byte then .ok ((), c.skip 1) else fail (.expected byte) c

/-- Passes the bytes for which `p` holds, up to the first for which it does not. -/
def takeWhile (p : UInt8 → Bool) : Reader Bytes := fun c =>
  let taken := c.rest.takeWhile p
  .ok (taken, c.skip taken.length)

/-- Whether a byte belongs to the line and not to its end. -/
def inLine (b : UInt8) : Bool := b != Octet.cr && b != Octet.lf

/-- The bytes up to the next space, of which there is one at least. -/
def word : Reader String := do
  let bytes ← takeWhile fun b => inLine b && b != Octet.space
  if bytes.isEmpty then fail .expectedWord
  else
    match Utf8.strict? bytes with
    | some text => pure text
    | none => fail .wordNotText

def restOfLine : Reader String := do
  pure (Utf8.lossy (← takeWhile inLine))

/-- Whether a byte can stand in a bare word. -/
def isAtomByte (b : UInt8) : Bool :=
  0x1f < b && b != 0x7f && b != Octet.space && b != Octet.openParen && b != Octet.closeParen &&
    b != Octet.openBracket && b != Octet.closeBracket && b != Octet.openBrace && b != Octet.quote

/-- What a bare word stands for: the word for nothing, a number of 64 bits, or itself. -/
def ofWord (bytes : Bytes) : Value :=
  let text := Utf8.lossy bytes
  if Ascii.same text "NIL" then .absent
  else
    match Octet.number? UInt64.size bytes with
    | some n => .number n
    | none => .atom text

def atom : Reader Value := do
  let bytes ← takeWhile isAtomByte
  if bytes.isEmpty then fail .expectedAtom else pure (ofWord bytes)

/-- The bytes of a quoted string after its opening mark, and the cursor after its closing
mark. `taken` holds the bytes so far, latest first. -/
def quotedFrom (position : Nat) (taken : Bytes) : Bytes → Except Fault (Bytes × Cursor)
  | [] => .error (.malformed position .unterminated)
  | b :: rest =>
    if b = Octet.quote then .ok (taken.reverse, ⟨position + 1, rest⟩)
    else if b = Octet.backslash then
      match rest with
      | [] => .error (.malformed (position + 1) .danglingEscape)
      | escaped :: rest => quotedFrom (position + 2) (escaped :: taken) rest
    else if inLine b then quotedFrom (position + 1) (b :: taken) rest
    else .error (.malformed position .unterminated)

/-- A string between quotation marks, where a backslash takes the next byte as it is. -/
def quoted : Reader Value := do
  expect Octet.quote
  let bytes ← fun c => quotedFrom c.position [] c.rest
  pure (.quoted bytes)

/-- The next `n` bytes, which have to be there. -/
def take (n : Nat) : Reader Bytes := fun c =>
  if c.position + n < UInt64.size then
    let taken := c.rest.take n
    if taken.length < n then fail .truncated c else .ok (taken, c.skip n)
  else .error (.unreadable .lengthOverflow)

/-- A string whose length is announced in braces at the end of a line. -/
def literal : Reader Value := do
  expect Octet.openBrace
  let ds ← takeWhile Octet.isDigit
  match Octet.number? UInt64.size ds with
  | none => fail .badLength
  | some length =>
    let _ ← eat Octet.plus
    expect Octet.closeBrace
    expect Octet.cr
    expect Octet.lf
    let bytes ← take length
    pure (.literal bytes)

/-- Values up to `close`, which is passed. `one` reads a value; at most `limit` of them are
read, and `taken` holds those so far, latest first. -/
def valuesFrom (one : Reader Value) (close : UInt8) : Nat → List Value → Reader (List Value)
  | 0, _ => fail (.unclosed close)
  | limit + 1, taken => do
    let _ ← takeWhile (· == Octet.space)
    if ← eat close then pure taken.reverse
    else if (← get).atEnd then fail (.unclosed close)
    else
      let v ← one
      valuesFrom one close limit (v :: taken)

/-- Values up to `close`. A line holds fewer values than bytes. -/
def valuesUntil (one : Reader Value) (close : UInt8) : Reader (List Value) := fun c =>
  valuesFrom one close (c.rest.length + 1) [] c

/-- A list, whose opening bracket is next. Its members are read by `one`, unless it lies too
deep. -/
def bracket (one : Option (Reader Value)) (close : UInt8) (make : List Value → Value) :
    Reader Value := do
  modify (·.skip 1)
  match one with
  | none => fail .tooDeep
  | some one => make <$> valuesUntil one close

/-- How deep brackets may nest. -/
def maxDepth : Nat := 64

section
/-! Strings of announced length are read by `announced`, which is `literal` unless somebody wants to
watch where they are read. -/
variable (announced : Reader Value)

/-- One value, the members of a list by `one`. -/
def valueBy (one : Option (Reader Value)) : Reader Value := do
  match (← get).rest with
  | [] => fail .endOfLine
  | b :: _ =>
    if b = Octet.openParen then bracket one Octet.closeParen .list
    else if b = Octet.openBracket then bracket one Octet.closeBracket .bracketed
    else if b = Octet.quote then quoted
    else if b = Octet.openBrace then announced
    else if inLine b then atom
    else fail .endOfLine

/-- One value, in which brackets nest at most `depth` deep. -/
def valueWithin : Nat → Reader Value
  | 0 => valueBy announced none
  | depth + 1 => valueBy announced (some (valueWithin depth))

def value : Reader Value := valueWithin announced maxDepth

/-- Values in parentheses, after the opening one. -/
def values (close : UInt8) : Reader (List Value) := valuesUntil (value announced) close

/-- A string, in any of its three forms. A bare one may hold brackets and quotation marks. -/
def string : Reader Value := do
  let c ← get
  if c.isNext Octet.quote || c.isNext Octet.openBrace then value announced
  else
    let bytes ← takeWhile fun b =>
      inLine b && b != Octet.space && b != Octet.openParen && b != Octet.closeParen
    if bytes.isEmpty then fail .expectedString else pure (.atom (Utf8.lossy bytes))

end

end Cursor

end Mailroom
