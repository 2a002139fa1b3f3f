import Mailroom.Message.Attachment
import Mailroom.Search.Mode
import Mailroom.Search.Plan
import Mailroom.Session.Basic

/-! Finding the messages that a search describes.

The predicates of a search are put to the server one by one, and what they find is taken
together; the filters then look at the attachments of what is left. -/
namespace Mailroom.SearchSpec
variable {σ : Type} [MailSession σ]

/-- The key that stands for all messages that count. -/
def base (spec : SearchSpec) : SearchKey := if spec.unread then .unseen else .all

/-- The keys of a query, held to unread messages if only those count. -/
def restrict (spec : SearchSpec) (query : List SearchKey) : List SearchKey :=
  if spec.unread then .unseen :: query else query

/-- Asks the server for the messages to which every key applies. -/
def find (folder : String) (keys : List SearchKey) : Mail σ UidSet :=
  Mail.query folder (MailSession.search keys)

/-- Asks the server several queries, and takes what any of them finds. -/
def findAny (folder : String) (found : UidSet) : List (List SearchKey) → Mail σ UidSet
  | [] => pure found
  | keys :: rest => do
    let more ← find folder keys
    findAny folder (found.union more) rest

/-- Whether the envelope of a message names a bulk sender first. -/
def isFromBulk (items : List FetchItem) : Bool :=
  items.any fun
    | .envelope e => (e.from.head?.bind Address.email?).any Bulk.isBulkSender
    | _ => false

/-- Looks at the envelopes of all messages that count, for bulk senders. -/
def scan (folder : String) (spec : SearchSpec) : Mail σ UidSet := do
  let candidates ← find folder [spec.base]
  let envelopes ← Mail.query folder (MailSession.fetch candidates [.envelope])
  pure (envelopes.filter fun _ items => isFromBulk items).keySet

/-- The messages for which a predicate holds. -/
def findings (folder : String) (spec : SearchSpec) (p : Predicate) : Mail σ UidSet :=
  match p.plan with
  | .queries queries => findAny folder .empty (queries.map spec.restrict)
  | .envelopeScan => scan folder spec

/-- What was found before, taken together with the findings of more predicates. -/
def mergeFindings (folder : String) (spec : SearchSpec) (mode : MergeMode) (found : UidSet) :
    List Predicate → Mail σ UidSet
  | [] => pure found
  | p :: rest => do
    let now ← findings folder spec p
    mergeFindings folder spec mode (mode.merge found now) rest

/-- The messages that the predicates find. -/
def query (folder : String) (spec : SearchSpec) (mode : MergeMode) : Mail σ UidSet :=
  match spec.predicates with
  | [] => find folder [spec.base]
  | p :: rest => do
    let found ← findings folder spec p
    mergeFindings folder spec mode found rest

/-- How many attachments the structure of a message shows. -/
def attachmentCount (items : List FetchItem) : Nat :=
  let count := items.findSome? fun
    | .bodyStructure body => some (Attachment.all body).length
    | _ => none
  count.getD 0

/-- The messages that pass a filter. -/
def narrow (folder : String) (uids : UidSet) (filter : PostFilter) : Mail σ UidSet := do
  if uids.isEmpty then pure uids
  else
    let structures ← Mail.query folder (MailSession.fetch uids [.bodyStructure])
    pure (structures.filter fun _ items => filter.keeps (attachmentCount items)).keySet

/-- The messages that pass every filter. -/
def narrowAll (folder : String) (uids : UidSet) : List PostFilter → Mail σ UidSet
  | [] => pure uids
  | filter :: rest => do
    let uids ← narrow folder uids filter
    narrowAll folder uids rest

/-- The messages in a folder that the search describes. The folder is opened for reading
only. -/
def resolve (folder : String) (spec : SearchSpec) (mode : MergeMode) : Mail σ UidSet := do
  let _ ← Mail.query folder (MailSession.selectFolder folder true)
  let found ← query folder spec mode
  narrowAll folder found spec.postFilters

end Mailroom.SearchSpec
