import Mailroom.Toml.Node
import Mailroom.Toml.Number

/-! Reading a TOML document. -/
namespace Mailroom.Toml.Document
open Scan Text

/-! ### Values -/

/-- The value that a scalar is. -/
def ofScalar : Number.Scalar → Toml
  | .integer n => .integer n
  | .float => .float
  | .boolean b => .boolean b
  | .moment => .moment

/-- The last part of a key, and the parts before it. -/
def splitKey (parts : List String) : List String × String :=
  (parts.dropLast, parts.getLast?.getD "")

/-- Values with commas between, at most `limit` of them, up to the closing bracket. A comma
may come last. -/
def itemsFrom (one : Reader Toml) : Nat → Reader (List Toml)
  | 0 => failure
  | limit + 1 => do
    gaps
    match ← peek with
    | some ']' => do
      sign ']'
      pure []
    | _ => do
      let v ← one
      gaps
      match ← peek with
      | some ',' => do
        sign ','
        pure (v :: (← itemsFrom one limit))
      | _ => do
        sign ']'
        pure [v]

def arrayOf (one : Reader Toml) : Reader Toml := do
  sign '['
  let items ← fun cs => itemsFrom one (cs.length + 1) cs
  pure (.array items)

def pair (one : Reader Toml) : Reader (List String × Toml) := do
  let parts ← key
  sign '='
  spaces
  let v ← one
  pure (parts, v)

/-- Keys and values with commas between, at most `limit` of them, up to the closing brace. -/
def pairsFrom (one : Reader Toml) (t : Node.Open) : Nat → Reader Node.Open
  | 0 => failure
  | limit + 1 => do
    let (parts, v) ← pair one
    spaces
    let (path, last) := splitKey parts
    let t ← StateT.lift (Node.set path last v t)
    match ← peek with
    | some ',' => do
      sign ','
      pairsFrom one t limit
    | _ => do
      sign '\x7d'
      pure t

def inlineTable (one : Reader Toml) : Reader Toml := do
  sign '\x7b'
  spaces
  match ← peek with
  | some '\x7d' => do
    sign '\x7d'
    pure (.table [])
  | _ => do
    let t ← fun cs => pairsFrom one (.given, []) (cs.length + 1) cs
    pure (.table (Node.toEntries t.2))

/-- One value, whose members are read by `one`, if they may nest that deep. -/
def valueBy (one : Option (Reader Toml)) : Reader Toml := do
  match ← peek with
  | some '"' => Toml.string <$> Text.string
  | some '\'' => Toml.string <$> Text.string
  | some '[' =>
    match one with
    | some one => arrayOf one
    | none => failure
  | some '\x7b' =>
    match one with
    | some one => inlineTable one
    | none => failure
  | _ => ofScalar <$> Number.scalar

/-- One value, in which values nest at most `depth` deep. -/
def valueWithin : Nat → Reader Toml
  | 0 => valueBy none
  | depth + 1 => valueBy (some (valueWithin depth))

def value : Reader Toml := valueWithin (maxDepth - 1)

/-! ### Documents -/

/-- A document that is read: its table, and the path of the table that was opened last. -/
structure Draft where
  root : Node.Open := (.given, [])
  current : List String := []

/-- Puts a value into the table that was opened last. -/
def Draft.set (d : Draft) (parts : List String) (v : Toml) : Option Draft := do
  let (path, last) := splitKey parts
  let root ← Node.change false (Node.set path last v) d.current d.root
  pure { d with root }

/-- Opens a table, or one more table in a row. -/
def Draft.enter (d : Draft) (parts : List String) (isRow : Bool) : Option Draft := do
  let (path, last) := splitKey parts
  let root ← Node.change false (if isRow then Node.openRow last else Node.openTable last) path d.root
  pure { root, current := parts }

/-- A header, which opens a table. -/
def header (d : Draft) : Reader Draft := fun cs =>
  match cs with
  | '[' :: '[' :: rest => run true [']', ']'] rest
  | '[' :: rest => run false [']'] rest
  | _ => none
where
  run (isRow : Bool) (closing : List Char) : Reader Draft := do
    let parts ← key
    signs closing
    trailing
    StateT.lift (d.enter parts isRow)

/-- A line with a key and its value. -/
def setting (d : Draft) : Reader Draft := do
  let (parts, v) ← pair value
  trailing
  StateT.lift (d.set parts v)

/-- The lines of a document, at most `limit` of them. -/
def linesFrom : Nat → Draft → Reader Draft
  | 0, _ => failure
  | limit + 1, d => do
    spaces
    match ← peek with
    | none => pure d
    | some '#' => do
      comment
      lineEnd
      linesFrom limit d
    | some '\n' => do
      newline
      linesFrom limit d
    | some '\r' => do
      newline
      linesFrom limit d
    | some '[' => do linesFrom limit (← header d)
    | some _ => do linesFrom limit (← setting d)

end Document

/-- The table that a document describes, if it is in order. A byte order mark in front does
not count. -/
def read? (document : String) : Option Entries :=
  let cs := match document.toList with
    | '\uFEFF' :: rest => rest
    | cs => cs
  match Document.linesFrom (cs.length + 1) {} cs with
  | some (d, _) => some (Node.toEntries d.root.2)
  | none => none

end Mailroom.Toml
