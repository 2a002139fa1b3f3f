import Mailroom.Search.Bulk
import Mailroom.Search.DateRange

/-! What to search for.

A search is a list of predicates, at most one of each kind, in the order in which their
kinds were first asked for; whether only unread messages count; and filters that look at the
attachments of what was found. -/
namespace Mailroom

/-- One condition on a message. -/
inductive Predicate
  /-- The sender is one of these. -/
  | senders (addresses : List String)
  /-- The sender looks like one that writes to many. -/
  | bulkSenders
  /-- The sender is none of these. -/
  | notSenders (addresses : List String)
  /-- The recipient is one of these. -/
  | recipients (addresses : List String)
  | since (date : Date)
  | before (date : Date)
  | date (range : DateRange)
  | subject (text : String)
  | notSubject (text : String)
  | notReplied
  deriving DecidableEq

/-- The kinds of predicates. -/
inductive Predicate.Kind
  | senders
  | bulkSenders
  | notSenders
  | recipients
  | since
  | before
  | date
  | subject
  | notSubject
  | notReplied
  deriving DecidableEq, Repr

def Predicate.kind : Predicate → Predicate.Kind
  | senders _ => .senders
  | bulkSenders => .bulkSenders
  | notSenders _ => .notSenders
  | recipients _ => .recipients
  | since _ => .since
  | before _ => .before
  | date _ => .date
  | subject _ => .subject
  | notSubject _ => .notSubject
  | notReplied => .notReplied

/-- A condition on the attachments of a message. -/
inductive PostFilter
  | attachments
  | noAttachments
  deriving DecidableEq, Repr

def PostFilter.text : PostFilter → String
  | .attachments => "attachments"
  | .noAttachments => "no_attachments"

/-- Whether a message with so many attachments passes. -/
def PostFilter.keeps (filter : PostFilter) (attachments : Nat) : Bool :=
  match filter with
  | .attachments => 0 < attachments
  | .noAttachments => attachments == 0

/-- What to search for. Without predicates every message counts. -/
structure SearchSpec where
  predicates : List Predicate := []
  unread : Bool := false
  postFilters : List PostFilter := []
  deriving DecidableEq

namespace SearchSpec

/-- The predicates with `p` in place of the one of its kind, or at the end. -/
def place (p : Predicate) : List Predicate → List Predicate
  | [] => [p]
  | q :: rest => if q.kind = p.kind then p :: rest else q :: place p rest

/-- The search with one predicate more, in place of the one of its kind. -/
def insert (spec : SearchSpec) (p : Predicate) : SearchSpec :=
  { spec with predicates := place p spec.predicates }

/-- The search with one predicate more, if there is one. -/
def insert? (spec : SearchSpec) (p : Option Predicate) : SearchSpec :=
  p.elim spec spec.insert

/-- The search for certain senders. An address with the sentinel in it stands for the bulk
senders. -/
def withSenders (spec : SearchSpec) (values : List String) : Except SpecProblem SearchSpec :=
  if values.isEmpty then throw (.noAddress "senders")
  else
    let (bulk, addresses) := values.partition fun v => Bulk.hasSentinel v.toList
    let spec := if addresses.isEmpty then spec else spec.insert (.senders addresses)
    pure (if bulk.isEmpty then spec else spec.insert .bulkSenders)

/-- The search among unread messages, or among all. -/
def withUnread (spec : SearchSpec) (unread : Bool) : SearchSpec := { spec with unread }

/-- The search with one filter more. The same filter is not added twice. -/
def withPostFilter (spec : SearchSpec) (filter : PostFilter) : SearchSpec :=
  if spec.postFilters.contains filter then spec
  else { spec with postFilters := spec.postFilters ++ [filter] }

/-- Whether there is nothing to find out about a message. -/
def isEmpty (spec : SearchSpec) : Bool := spec.predicates.isEmpty && spec.postFilters.isEmpty

end SearchSpec

end Mailroom
