import Mailroom.Search.Spec

/-! A search as it is written in a rule. -/
namespace Mailroom

/-- A text, or several. -/
inductive OneOrMany
  | one (text : String)
  | many (texts : List String)
  deriving DecidableEq, Repr

def OneOrMany.toList : OneOrMany → List String
  | one text => [text]
  | many texts => texts

/-- The keys of a search, those that were given. -/
structure SpecRecord where
  senders : Option OneOrMany := none
  notSenders : Option OneOrMany := none
  recipients : Option OneOrMany := none
  since : Option String := none
  before : Option String := none
  date : Option OneOrMany := none
  subject : Option String := none
  notSubject : Option String := none
  unread : Bool := false
  notReplied : Bool := false
  attachments : Bool := false
  noAttachments : Bool := false
  deriving DecidableEq

namespace SpecRecord

/-- The texts under a key, of which there has to be one. -/
def addresses (key : String) (values : OneOrMany) : Except SpecProblem (List String) :=
  if values.toList.isEmpty then throw (.noAddress key) else pure values.toList

/-- The range that one text names, or that lies between two days. -/
def rangeOf : OneOrMany → Except SpecProblem DateRange
  | .one text => DateRange.ofText text
  | .many texts => do DateRange.ofEnds (← texts.mapM Date.ofText)

/-- The predicate under a key, if the key was given. -/
def predicate? {α β : Type} (value : Option α) (read : α → Except SpecProblem β)
    (make : β → Predicate) : Except SpecProblem (Option Predicate) :=
  match value with
  | none => pure none
  | some v => do pure (some (make (← read v)))

/-- The search that the keys describe. The keys are taken in a fixed order. -/
def toSpec (record : SpecRecord) : Except SpecProblem SearchSpec := do
  let mut spec : SearchSpec := { unread := record.unread }
  if let some senders := record.senders then
    spec ← spec.withSenders senders.toList
  spec := spec.insert? (← predicate? record.notSenders (addresses "not_senders") .notSenders)
  spec := spec.insert? (← predicate? record.recipients (addresses "recipients") .recipients)
  spec := spec.insert? (← predicate? record.since Date.ofText .since)
  spec := spec.insert? (← predicate? record.before Date.ofText .before)
  spec := spec.insert? (← predicate? record.date rangeOf .date)
  spec := spec.insert? (record.subject.map .subject)
  spec := spec.insert? (record.notSubject.map .notSubject)
  if record.notReplied then spec := spec.insert .notReplied
  if record.attachments then spec := spec.withPostFilter .attachments
  if record.noAttachments then spec := spec.withPostFilter .noAttachments
  pure spec

end SpecRecord

end Mailroom
