import Mailroom.Text.Octet
import Mailroom.Text.Decimal

/-! What can be wrong with a response line.

A malformed line is described by a reason and the place where reading stopped; what is only
found out once the pieces are understood has place 0. Two lines cannot be read at all: one
announces a string that would end past the last address, the other names a mailbox in a way
that stands for no text. -/
namespace Mailroom

/-- Why a line is malformed. -/
inductive Reason
  /-- Another byte had to come here. -/
  | expected (byte : UInt8)
  | expectedWord
  | wordNotText
  | expectedString
  | expectedAtom
  | endOfLine
  /-- The list was not closed. -/
  | unclosed (byte : UInt8)
  | tooDeep
  | danglingEscape
  | unterminated
  | badLength
  | truncated
  | unknownStatus (word : String)
  | bodyWithout (what : String)
  | multipartWithoutSubtype
  | itemWithoutName
  | itemWithoutValue (name : String)
  | badUid
  | listingWithoutName
  | badSearchResult (word : String)
  deriving DecidableEq, Repr

def Reason.message : Reason → String
  | expected byte => "expected '" ++ String.singleton (Octet.char byte) ++ "'"
  | expectedWord => "expected a word"
  | wordNotText => "non-UTF-8 word"
  | expectedString => "expected astring"
  | expectedAtom => "expected atom"
  | endOfLine => "unexpected end of line"
  | unclosed byte => "missing '" ++ String.singleton (Octet.char byte) ++ "'"
  | tooDeep => "nesting too deep"
  | danglingEscape => "dangling escape"
  | unterminated => "unterminated string"
  | badLength => "invalid literal length"
  | truncated => "truncated literal"
  | unknownStatus word => "unknown completion status " ++ word
  | bodyWithout what => "body part without " ++ what
  | multipartWithoutSubtype => "multipart without subtype"
  | itemWithoutName => "FETCH item without a name"
  | itemWithoutValue name => "FETCH item " ++ name ++ " without a value"
  | badUid => "invalid UID"
  | listingWithoutName => "LIST without mailbox name"
  | badSearchResult word => "invalid SEARCH result " ++ word

/-- Why a line cannot be read at all. -/
inductive Unreadable
  /-- The announced string would end past the last address. -/
  | lengthOverflow
  /-- The mailbox name has a run that is not base64. -/
  | mailboxName
  deriving DecidableEq, Repr

/-- What is wrong with a line. -/
inductive Fault
  | malformed (position : Nat) (reason : Reason)
  | unreadable (cause : Unreadable)
  deriving DecidableEq, Repr

def Fault.message : Fault → String
  | malformed position reason =>
    "Parse error at position " ++ Decimal.text position ++ ": " ++ reason.message
  | unreadable .lengthOverflow => "literal length out of range"
  | unreadable .mailboxName => "mailbox name is not base64"

end Mailroom
