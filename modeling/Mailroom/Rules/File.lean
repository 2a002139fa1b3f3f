import Mailroom.Config.Files
import Mailroom.Rules.Rule
import Mailroom.Text.Path
import Mailroom.Toml.Decode

/-! Rules in files.

A file of rules is a row of tables named `rule`, in the order in which the rules apply. -/
namespace Mailroom

/-- The rule that a table describes. -/
def RuleRecord.ofEntries? (entries : Toml.Entries) : Option RuleRecord := do
  let name ← Toml.optional? Toml.text? entries "name"
  let merge ← Toml.optional? MergeMode.ofToml? entries "merge"
  let moveTo ← Toml.optional? Toml.text? entries "move"
  let delete ← Toml.withDefault? Toml.boolean? false entries "delete"
  let search ← SpecRecord.ofEntries? entries
  pure { name, merge, moveTo, delete, search }

namespace Rules

/-- The rules that a row of tables describes. -/
def records? (v : Toml) : Option (List RuleRecord) := do
  let tables ← (← v.items?).mapM Toml.settings?
  tables.mapM RuleRecord.ofEntries?

/-- The rules that a document describes, before they are looked at. -/
def documentRecords? (document : String) : Option (List RuleRecord) := do
  Toml.withDefault? records? [] (← Toml.read? document) "rule"

/-- The rules in a document. `source` is the name of its file. -/
def parse (document source : String) : Except Failure (List Rule) :=
  match documentRecords? document with
  | none => throw (.malformed source)
  | some records => RuleRecord.toRules ((Path.stem? source).getD "rules") 1 records

/-- The rules in several files, in the order of the files. -/
def load (files : Files) : List String → Except Failure (List Rule)
  | [] => pure []
  | path :: rest => do
    let rules ← parse (← files.read path) path
    pure (rules ++ (← load files rest))

end Rules

end Mailroom
