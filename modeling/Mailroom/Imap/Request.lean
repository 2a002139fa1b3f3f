import Mailroom.Imap.SearchKey
import Mailroom.Text.Octet

/-! How a command is put into bytes.

A command is a list of pieces. Most travel as they are; a text that a line cannot hold
travels as a string of announced length, and then, unless the server takes such strings
unasked, what follows the announcement waits until the server is ready for it. So a request
is a list of parts, each but the first sent on the server's word. -/
namespace Mailroom

/-- A piece of a command. -/
inductive Piece
  | plain (bytes : Bytes)
  /-- A string whose length is announced. -/
  | counted (bytes : Bytes)
  deriving DecidableEq

namespace Piece

/-- A text that travels as it is. -/
def text (s : String) : Piece := plain (Utf8.encode s)

/-- Whether a byte keeps a string from being a bare word. -/
def needsQuoting (b : UInt8) : Bool :=
  b == Octet.space || b == Octet.quote || b == Octet.backslash || b == Octet.openParen ||
    b == Octet.closeParen || b == Octet.openBrace || b == Octet.percent || b == Octet.star ||
    b < 0x20 || b == 0x7f

/-- Whether a byte can stand on no line, even between quotation marks. -/
def needsCount (b : UInt8) : Bool :=
  0x80 ≤ b || b == Octet.cr || b == Octet.lf || b == 0

/-- A byte as it stands between quotation marks. -/
def escape (b : UInt8) : Bytes :=
  if b = Octet.quote ∨ b = Octet.backslash then [Octet.backslash, b] else [b]

/-- The bytes between quotation marks. -/
def quoted (bytes : Bytes) : Piece :=
  plain (Octet.quote :: bytes.flatMap escape ++ [Octet.quote])

/-- A string that is never a bare word. -/
def string (s : String) : Piece :=
  let bytes := Utf8.encode s
  if bytes.any needsCount then counted bytes else quoted bytes

/-- A string in its shortest form: a bare word where that can be told from other words. -/
def shortest (s : String) : Piece :=
  let bytes := Utf8.encode s
  if bytes.any needsCount then counted bytes
  else if bytes.isEmpty || bytes.any needsQuoting then quoted bytes
  else plain bytes

/-- A pattern for mailbox names, whose wildcards stay as they are. -/
def pattern (s : String) : Piece :=
  let bytes := Utf8.encode s
  if !bytes.isEmpty && bytes.all fun b => b == Octet.percent || b == Octet.star || !needsQuoting b then
    plain bytes
  else shortest s

def ofKey : SearchKey → List Piece
  | .all => [text "ALL"]
  | .unseen => [text "UNSEEN"]
  | .unanswered => [text "UNANSWERED"]
  | .from s => [text "FROM ", string s]
  | .to s => [text "TO ", string s]
  | .subject s => [text "SUBJECT ", string s]
  | .since date => [text "SINCE ", text date.searchText]
  | .before date => [text "BEFORE ", text date.searchText]
  | .not key => text "NOT " :: ofKey key

/-- The pieces of several search keys, with spaces between. -/
def ofKeys : List SearchKey → List Piece
  | [] => []
  | [key] => ofKey key
  | key :: rest => ofKey key ++ text " " :: ofKeys rest

end Piece

namespace Request

/-- The announcement of a string of `n` bytes. The plus says that it follows at once. -/
def announcement (unasked : Bool) (n : Nat) : Bytes :=
  Octet.openBrace :: Octet.ofText (Decimal.text n) ++ (if unasked then [Octet.plus] else []) ++
    Octet.closeBrace :: Octet.crlf

/-- The parts of a list of pieces, the first of which goes on from `part`. With `unasked` no
part waits. -/
def partsFrom (unasked : Bool) (part : Bytes) : List Piece → List Bytes
  | [] => [part]
  | .plain bytes :: rest => partsFrom unasked (part ++ bytes) rest
  | .counted bytes :: rest =>
    let announced := part ++ announcement unasked bytes.length
    if unasked then partsFrom unasked (announced ++ bytes) rest
    else announced :: partsFrom unasked bytes rest

/-- The parts of a command with the given tag. -/
def parts (tag : String) (unasked : Bool) (pieces : List Piece) : List Bytes :=
  partsFrom unasked (Utf8.encode tag ++ [Octet.space]) (pieces ++ [.plain Octet.crlf])

end Request

end Mailroom
