import Mailroom.Toml.Scan

/-! Reading a TOML document: strings. -/
namespace Mailroom.Toml.Text
open Scan

def hexDigit? (c : Char) : Option Nat :=
  if '0' ≤ c ∧ c ≤ '9' then some (c.toNat - 48)
  else if 'a' ≤ c ∧ c ≤ 'f' then some (c.toNat - 87)
  else if 'A' ≤ c ∧ c ≤ 'F' then some (c.toNat - 55)
  else none

def isHex (c : Char) : Bool := (hexDigit? c).isSome

/-- The number that digits spell in a base up to sixteen. -/
def spelled (base : Nat) (ds : List Char) : Nat :=
  ds.foldl (fun n c => n * base + (hexDigit? c).getD 0) 0

/-- The character with the given number, if there is one. -/
def char? (n : Nat) : Option Char := if n.isValidChar then some (Char.ofNat n) else none

/-- The character that `width` hexadecimal digits number. -/
def numbered (width : Nat) : Reader Char := do
  let ds ← exactly width isHex
  StateT.lift (char? (spelled 16 ds))

/-- The character that an escape stands for, after its backslash. -/
def escape : Reader Char := do
  match ← oneOf fun _ => true with
  | 'b' => pure '\x08'
  | 't' => pure '\t'
  | 'n' => pure '\n'
  | 'f' => pure '\x0c'
  | 'r' => pure '\r'
  | '"' => pure '"'
  | '\\' => pure '\\'
  | 'u' => numbered 4
  | 'U' => numbered 8
  | _ => failure

/-- The rest of a string between single marks, at most `limit` characters and escapes. `read`
holds the characters so far, latest first. -/
def basicRest : Nat → List Char → Reader String
  | 0, _ => failure
  | limit + 1, read => do
    match ← oneOf fun _ => true with
    | '"' => pure (String.ofList read.reverse)
    | '\\' => do basicRest limit ((← escape) :: read)
    | c => if isPlain c then basicRest limit (c :: read) else failure

def basic : Reader String := do
  sign '"'
  fun cs => basicRest (cs.length + 1) [] cs

/-- A string between apostrophes, in which everything stands for itself. -/
def literal : Reader String := do
  sign '\''
  let read ← manyOf fun c => isPlain c && c != '\''
  sign '\''
  pure (String.ofList read)

/-- Takes the marks that stand at the end of a string of several lines: three close it, and
up to two before those belong to it. -/
def close (mark : Char) (read : List Char) : Reader (List Char ⊕ String) := fun cs =>
  let run := (cs.takeWhile (· == mark)).length
  if run < 3 then
    some (.inl (List.replicate run mark ++ read), cs.drop run)
  else
    let inside := min (run - 3) 2
    some (.inr (String.ofList (List.replicate inside mark ++ read).reverse), cs.drop (inside + 3))

/-- The end of a line inside a string of several lines, left out together with the blanks and
the ends of lines that follow it. -/
def joinedLines (limit : Nat) : Reader Unit := do
  spaces
  newline
  go limit
where
  go : Nat → Reader Unit
    | 0 => pure ()
    | limit + 1 => do
      spaces
      match ← optional newline with
      | some _ => go limit
      | none => pure ()

/-- The rest of a string of several lines. With `escapes` a backslash begins an escape, or
joins two lines. -/
def linesRest (mark : Char) (escapes : Bool) : Nat → List Char → Reader String
  | 0, _ => failure
  | limit + 1, read => do
    match ← peek with
    | none => failure
    | some c =>
      if c = mark then
        match ← close mark read with
        | .inl read => linesRest mark escapes limit read
        | .inr text => pure text
      else if c = '\\' ∧ escapes then
        sign '\\'
        match ← optional (joinedLines (← get).length) with
        | some _ => linesRest mark escapes limit read
        | none => linesRest mark escapes limit ((← escape) :: read)
      else if c = '\n' ∨ c = '\r' then
        newline
        linesRest mark escapes limit ('\n' :: read)
      else
        let c ← oneOf isPlain
        linesRest mark escapes limit (c :: read)

/-- A string of several lines. An end of line right after the opening marks is left out. -/
def lines (mark : Char) (escapes : Bool) : Reader String := do
  signs [mark, mark, mark]
  let _ ← optional newline
  fun cs => linesRest mark escapes (cs.length + 1) [] cs

/-- A string in any of its four forms. -/
def string : Reader String := fun cs =>
  match cs with
  | '"' :: '"' :: '"' :: _ => lines '"' true cs
  | '"' :: _ => basic cs
  | '\'' :: '\'' :: '\'' :: _ => lines '\'' false cs
  | '\'' :: _ => literal cs
  | _ => none

def isKeyChar (c : Char) : Bool := c.isAlphanum || c == '_' || c == '-'

/-- One part of a key. -/
def simpleKey : Reader String := do
  match ← peek with
  | some '"' => basic
  | some '\'' => literal
  | _ => do pure (String.ofList (← someOf isKeyChar))

/-- How many parts a key may have, and how deep values may nest. -/
def maxDepth : Nat := 80

/-- The further parts of a dotted key, at most `limit` of them. -/
def keyRest : Nat → Reader (List String)
  | 0 => failure
  | limit + 1 => do
    match ← peek with
    | some '.' => do
      sign '.'
      spaces
      let part ← simpleKey
      spaces
      pure (part :: (← keyRest limit))
    | _ => pure []

/-- A key: parts with dots between, and spaces around them. -/
def key : Reader (List String) := do
  spaces
  let part ← simpleKey
  spaces
  let rest ← fun cs => keyRest (cs.length + 1) cs
  if maxDepth ≤ rest.length + 1 then failure else pure (part :: rest)

end Mailroom.Toml.Text
