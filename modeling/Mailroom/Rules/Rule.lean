import Mailroom.Failure
import Mailroom.Search.Mode
import Mailroom.Search.Record
import Mailroom.Text.Blank

/-! Rules: what to do with the messages that a search finds. -/
namespace Mailroom

/-- Something done with messages. -/
inductive Action
  /-- Moves them to a folder, which is created if need be. -/
  | move (folder : String)
  | delete
  deriving DecidableEq, Repr

/-- A search, and what is done with the messages it finds. -/
structure Rule where
  name : String
  spec : SearchSpec
  merge : MergeMode
  /-- Moves come before deletions. -/
  actions : List Action
  deriving DecidableEq

/-- A rule as it is written. -/
structure RuleRecord where
  name : Option String := none
  merge : Option MergeMode := none
  moveTo : Option String := none
  delete : Bool := false
  search : SpecRecord := {}
  deriving DecidableEq

namespace RuleRecord

/-- The move a rule asks for, if it does. -/
def moves (name : String) (record : RuleRecord) : Except Failure (List Action) :=
  match record.moveTo with
  | none => pure []
  | some folder =>
    if Blank.isBlankText folder then throw (.config (.emptyDestination name))
    else pure [.move folder]

/-- The rule that a record describes, under the given name if it has none of its own. -/
def toRule (defaultName : String) (record : RuleRecord) : Except Failure Rule := do
  let name := record.name.getD defaultName
  let spec ← record.search.toSpec.mapError fun problem => .specification (.inRule name problem)
  let moves ← record.moves name
  let actions := moves ++ (if record.delete then [.delete] else [])
  if actions.isEmpty then throw (.config (.noAction name))
  pure ⟨name, spec, record.merge.getD .and, actions⟩

/-- The rules that records describe, one after the other. A rule without a name is called
after the file and its place in it. -/
def toRules (stem : String) (place : Nat) : List RuleRecord → Except Failure (List Rule)
  | [] => pure []
  | record :: rest => do
    let rule ← record.toRule (stem ++ "#" ++ Decimal.text place)
    let rules ← toRules stem (place + 1) rest
    pure (rule :: rules)

end RuleRecord

end Mailroom
