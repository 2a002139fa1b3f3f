import Mailroom.Config.Basic
import Mailroom.Search.Mode
import Mailroom.Search.Spec

/-! What a run of the program is asked to do. -/
namespace Mailroom.CommandLine

/-- The options of a run. -/
structure Options where
  /-- The account to look at, or the word for all of them. -/
  account : String := Config.allAccounts
  /-- The folder to search, or the word for all of them. -/
  mailbox : String := "INBOX"
  /-- Whether to list folders. -/
  folders : Bool := false
  /-- Whether to list senders. -/
  unique : Bool := false
  unread : Bool := false
  /-- Whether to show the names of senders. -/
  name : Bool := false
  /-- A year, month or day, or two days. -/
  date : List String := []
  /-- How many days to look back. -/
  days : Option Nat := none
  «from» : List String := []
  notFrom : List String := []
  «to» : List String := []
  subject : Option String := none
  notSubject : Option String := none
  attachments : Bool := false
  noAttachments : Bool := false
  notReplied : Bool := false
  merge : MergeMode := .or
  /-- Whether to apply the rules. -/
  rules : Bool := false
  dryRun : Bool := false
  /-- Whether to keep a password. -/
  storePassword : Bool := false
  /-- The file of the configuration. -/
  config : Option String := none
  deriving DecidableEq

namespace Options

/-- A predicate over addresses, if there are any. -/
def addresses? (make : List String → Predicate) (addresses : List String) : Option Predicate :=
  if addresses.isEmpty then none else some (make addresses)

/-- The search for certain senders, if any are asked for. -/
def withSenders (spec : SearchSpec) (senders : List String) : Except SpecProblem SearchSpec :=
  if senders.isEmpty then pure spec else spec.withSenders senders

/-- The day so many days ago. -/
def since? (today : Date) : Option Nat → Except SpecProblem (Option Predicate)
  | none => pure none
  | some days =>
    match today.minusDays? days with
    | some date => pure (some (.since date))
    | none => throw (.tooFarBack days)

/-- The range that one text names, or that lies between several days. -/
def range? : List String → Except SpecProblem (Option Predicate)
  | [] => pure none
  | [text] => do pure (some (.date (← DateRange.ofText text)))
  | texts => do pure (some (.date (← DateRange.ofEnds (← texts.mapM Date.ofText))))

/-- The search with a filter, if the filter is asked for. -/
def withFilter (spec : SearchSpec) (asked : Bool) (filter : PostFilter) : SearchSpec :=
  if asked then spec.withPostFilter filter else spec

/-- The search that the options describe. Days are counted back from today. -/
def searchSpec (o : Options) (today : Date) : Except SpecProblem SearchSpec := do
  let spec ← withSenders { unread := o.unread } o.from
  let spec := spec.insert? (addresses? .notSenders o.notFrom)
  let spec := spec.insert? (addresses? .recipients o.to)
  let spec := spec.insert? (← since? today o.days)
  let spec := spec.insert? (← range? o.date)
  let spec := spec.insert? (o.subject.map .subject)
  let spec := spec.insert? (o.notSubject.map .notSubject)
  let spec := spec.insert? (if o.notReplied then some .notReplied else none)
  let spec := withFilter spec o.attachments .attachments
  pure (withFilter spec o.noAttachments .noAttachments)

end Options

end Mailroom.CommandLine
