import Mailroom.Text.Octet
import Mailroom.Text.Decimal

/-! Frames: how a stream of bytes is cut into responses.

A response is a line, except that a line ending in the announcement of a string goes on with
as many bytes as were announced and then with another line. The cutter is fed one byte at a
time and told where each read of the transport ends, because a line that grows too long is
noticed only when a read has been used up. -/
namespace Mailroom

/-- Why the stream can be cut no further. -/
inductive FrameError
  | literalTooLong (length : Nat)
  | lineTooLong
  /-- The stream ended. -/
  | closed
  deriving DecidableEq, Repr

namespace Frame

/-- How long a line may grow between strings of announced length. -/
def maxLine : Nat := 1024 * 1024

/-- How long a string may be announced to be. -/
def maxLiteral : Nat := 64 * 1024 * 1024

/-- The digits at the front of a line read backwards, up to an opening brace. -/
def announcedDigits (backwards : Bytes) : Option Bytes :=
  match backwards.dropWhile Octet.isDigit with
  | Octet.openBrace :: _ => some (backwards.takeWhile Octet.isDigit).reverse
  | _ => none

/-- The length announced at the end of a line, which is given backwards and without its line
break. A number that no address can hold announces nothing. -/
def announced? (backwards : Bytes) : Option Nat :=
  match backwards with
  | Octet.closeBrace :: Octet.plus :: rest => (announcedDigits rest).bind (Octet.number? UInt64.size)
  | Octet.closeBrace :: rest => (announcedDigits rest).bind (Octet.number? UInt64.size)
  | _ => none

/-- A frame that is not finished: the bytes before its last line and that line, both latest
first, the length of the line, and how many bytes of an announced string are to come before
the line begins. -/
structure Cutter where
  before : Bytes := []
  line : Bytes := []
  length : Nat := 0
  due : Nat := 0
  deriving DecidableEq

/-- The bytes of an unfinished frame, in order. -/
def Cutter.held (c : Cutter) : Bytes := (c.line ++ c.before).reverse

/-- A cutter after the end of a line: a frame, a string to come, or an error. -/
inductive Step
  | more (cutter : Cutter)
  | frame (bytes : Bytes)
  | failure (error : FrameError)

/-- What the end of a line brings. `line` is the line with its line break, backwards. -/
def endOfLine (before line : Bytes) : Step :=
  match announced? (line.drop 2) with
  | none => .frame (line ++ before).reverse
  | some length =>
    if maxLiteral < length then .failure (.literalTooLong length)
    else .more { before := line ++ before, due := length }

/-- One byte more. -/
def Cutter.feed (c : Cutter) (b : UInt8) : Step :=
  if 0 < c.due then .more { c with before := b :: c.before, due := c.due - 1 }
  else
    let line := b :: c.line
    if b = Octet.lf ∧ c.line.head? = some Octet.cr then endOfLine c.before line
    else .more { c with line := line, length := c.length + 1 }

/-- A stream cut so far: the frames, latest first, the frame that is not finished, and the
error that ends the cutting once there is one. -/
structure Cutting where
  frames : List Bytes := []
  cutter : Cutter := {}
  error : Option FrameError := none

/-- One byte more. After an error nothing more is cut. -/
def Cutting.feed (s : Cutting) (b : UInt8) : Cutting :=
  match s.error with
  | some _ => s
  | none =>
    match s.cutter.feed b with
    | .more cutter => { s with cutter }
    | .frame bytes => { s with frames := bytes :: s.frames, cutter := {} }
    | .failure error => { s with error := some error }

/-- The end of a read. A line that is still open must not be too long by now. -/
def Cutting.pause (s : Cutting) : Cutting :=
  match s.error with
  | some _ => s
  | none =>
    if s.cutter.due = 0 ∧ maxLine < s.cutter.length then { s with error := some .lineTooLong } else s

/-- All the bytes of one read. -/
def Cutting.read (s : Cutting) (bytes : Bytes) : Cutting := (bytes.foldl Cutting.feed s).pause

def readSize : Nat := 8 * 1024

/-- The reads in which the bytes of one chunk arrive, of which there are at most `limit`. -/
def reads : Nat → Bytes → List Bytes
  | 0, _ => []
  | limit + 1, bytes =>
    if bytes.isEmpty then []
    else bytes.take readSize :: reads limit (bytes.drop readSize)

/-- The frames of a stream that arrives in the given chunks and then ends, and the error
that every further attempt to read meets. -/
def ofChunks (chunks : List Bytes) : List Bytes × FrameError :=
  let all := chunks.flatMap fun chunk => reads (chunk.length / readSize + 1) chunk
  let cut := all.foldl Cutting.read {}
  (cut.frames.reverse, cut.error.getD .closed)

end Frame

end Mailroom
