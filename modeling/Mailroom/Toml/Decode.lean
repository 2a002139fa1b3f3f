import Mailroom.Search.Mode
import Mailroom.Search.Record
import Mailroom.Toml.Document

/-! What settings a table holds.

A setting is looked up by its key, and has to be of the kind that is expected there; keys
that nobody asks for do not matter. -/
namespace Mailroom.Toml

def text? : Toml → Option String
  | string s => some s
  | _ => none

def boolean? : Toml → Option Bool
  | boolean b => some b
  | _ => none

def entries? : Toml → Option Entries
  | table entries => some entries
  | _ => none

/-- The entries among which settings are looked up. A moment counts as a table too, in which
no setting is given. -/
def settings? : Toml → Option Entries
  | table entries => some entries
  | moment => some []
  | _ => none

def items? : Toml → Option (List Toml)
  | array items => some items
  | _ => none

def texts? : Toml → Option OneOrMany
  | string s => some (.one s)
  | array items => (items.mapM text?).map .many
  | _ => none

def port? : Toml → Option Nat
  | integer n => if 0 ≤ n ∧ n < UInt16.size then some n.toNat else none
  | _ => none

/-- Whether a value holds nothing. -/
def isHollow : Toml → Bool
  | array [] => true
  | table [] => true
  | _ => false

/-- The word that a value chooses: a text, or the one key of a table that holds nothing. -/
def choice? : Toml → Option String
  | string s => some s
  | table [(key, v)] => if isHollow v then some key else none
  | _ => none

/-- A setting that may be missing, read by `read`. -/
def optional? {α : Type} (read : Toml → Option α) (entries : Entries) (key : String) :
    Option (Option α) :=
  match find? key entries with
  | none => some none
  | some v => (read v).map some

/-- A setting that may be missing, and then has the value `default`. -/
def withDefault? {α : Type} (read : Toml → Option α) (default : α) (entries : Entries)
    (key : String) : Option α :=
  (optional? read entries key).map fun v => v.getD default

/-- A setting that has to be there. -/
def required? {α : Type} (read : Toml → Option α) (entries : Entries) (key : String) : Option α :=
  (find? key entries).bind read

end Mailroom.Toml

namespace Mailroom
open Toml

/-- The search that the keys of a table describe. -/
def SpecRecord.ofEntries? (entries : Entries) : Option SpecRecord := do
  let senders ← optional? texts? entries "senders"
  let notSenders ← optional? texts? entries "not_senders"
  let recipients ← optional? texts? entries "recipients"
  let since ← optional? text? entries "since"
  let before ← optional? text? entries "before"
  let date ← optional? texts? entries "date"
  let subject ← optional? text? entries "subject"
  let notSubject ← optional? text? entries "not_subject"
  let unread ← withDefault? boolean? false entries "unread"
  let notReplied ← withDefault? boolean? false entries "not_replied"
  let attachments ← withDefault? boolean? false entries "attachments"
  let noAttachments ← withDefault? boolean? false entries "no_attachments"
  pure
    { senders, notSenders, recipients, since, before, date, subject, notSubject, unread, notReplied
      attachments, noAttachments }

/-- The search that a document describes. -/
def SpecRecord.ofDocument? (document : String) : Option SpecRecord :=
  (Toml.read? document).bind ofEntries?

/-- The mode that a value chooses. -/
def MergeMode.ofToml? (v : Toml) : Option MergeMode :=
  match choice? v with
  | some "and" => some .and
  | some "or" => some .or
  | _ => none

end Mailroom
