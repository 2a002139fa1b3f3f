/-! Reading a TOML document, the small pieces: characters, blanks, comments and words. -/
namespace Mailroom.Toml

/-- A reader takes what it needs from the front of a document, or fails. -/
abbrev Reader := StateT (List Char) Option

namespace Scan

/-- The next character, which stays where it is. -/
def peek : Reader (Option Char) := do pure (← get).head?

def sign (expected : Char) : Reader Unit := fun cs =>
  match cs with
  | c :: rest => if c = expected then some ((), rest) else none
  | [] => none

def signs (expected : List Char) : Reader Unit := fun cs =>
  if expected.isPrefixOf cs then some ((), cs.drop expected.length) else none

/-- Takes a character for which `p` holds. -/
def oneOf (p : Char → Bool) : Reader Char := fun cs =>
  match cs with
  | c :: rest => if p c then some (c, rest) else none
  | [] => none

/-- Takes the characters for which `p` holds, as many as there are. -/
def manyOf (p : Char → Bool) : Reader (List Char) := fun cs =>
  let taken := cs.takeWhile p
  some (taken, cs.drop taken.length)

/-- Takes the characters for which `p` holds, of which there has to be one. -/
def someOf (p : Char → Bool) : Reader (List Char) := do
  let taken ← manyOf p
  if taken.isEmpty then failure else pure taken

/-- Takes the next `n` characters, for all of which `p` has to hold. -/
def exactly (n : Nat) (p : Char → Bool) : Reader (List Char) := fun cs =>
  let taken := cs.take n
  if taken.length = n ∧ taken.all p then some (taken, cs.drop n) else none

def isSpace (c : Char) : Bool := c == ' ' || c == '\t'

/-- Whether a character may stand in a comment, or in a string that has no need of it. -/
def isPlain (c : Char) : Bool := c == '\t' || (0x20 ≤ c.toNat && c.toNat != 0x7f)

def spaces : Reader Unit := do let _ ← manyOf isSpace

def newline : Reader Unit := fun cs =>
  match cs with
  | '\n' :: rest => some ((), rest)
  | '\r' :: '\n' :: rest => some ((), rest)
  | _ => none

def comment : Reader Unit := do
  sign '#'
  let _ ← manyOf isPlain

/-- The end of a line, or of the document. -/
def lineEnd : Reader Unit := do
  match ← peek with
  | none => pure ()
  | some _ => newline

/-- What may follow on a line: spaces and a comment. -/
def trailing : Reader Unit := do
  spaces
  let _ ← optional comment
  lineEnd

/-- Leaves out blanks, comments and ends of lines, at most `limit` of them. -/
def gap : Nat → Reader Unit
  | 0 => pure ()
  | limit + 1 => do
    spaces
    match ← peek with
    | some '#' => do
      comment
      newline
      gap limit
    | some '\n' => do
      newline
      gap limit
    | some '\r' => do
      newline
      gap limit
    | _ => pure ()

/-- Leaves out blanks, comments and ends of lines. -/
def gaps : Reader Unit := fun cs => gap (cs.length + 1) cs

end Scan

end Mailroom.Toml
