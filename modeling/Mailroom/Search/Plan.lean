import Mailroom.Imap.SearchKey
import Mailroom.Search.Spec

/-! How a predicate is put to a server. -/
namespace Mailroom

/-- How the messages with a property are found. -/
inductive Plan
  /-- The server is asked each query; what any of them finds counts. The keys of a query have
  to hold together. -/
  | queries (queries : List (List SearchKey))
  /-- The server cannot tell, so the envelopes are looked at. -/
  | envelopeScan
  deriving DecidableEq

/-- How the messages for which a predicate holds are found. -/
def Predicate.plan : Predicate → Plan
  | senders addresses => .queries (addresses.map fun a => [.from a])
  | recipients addresses => .queries (addresses.map fun a => [.to a])
  | notSenders addresses => .queries [addresses.map fun a => .not (.from a)]
  | since day => .queries [[.since day]]
  | before day => .queries [[.before day]]
  | date range => .queries [[.since range.since, .before range.before]]
  | subject text => .queries [[.subject text]]
  | notSubject text => .queries [[.not (.subject text)]]
  | notReplied => .queries [[.unanswered]]
  | bulkSenders => .envelopeScan

end Mailroom
