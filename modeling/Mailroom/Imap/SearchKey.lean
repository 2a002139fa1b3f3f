import Mailroom.Calendar.Date
import Mailroom.Text.Ascii

/-! What a search asks for. -/
namespace Mailroom

/-- One condition of a search. -/
inductive SearchKey
  | all
  | unseen
  | unanswered
  /-- Messages whose sender contains the text. -/
  | «from» (text : String)
  /-- Messages whose recipient contains the text. -/
  | «to» (text : String)
  /-- Messages whose subject contains the text. -/
  | subject (text : String)
  /-- Messages received on or after the date. -/
  | since (date : Date)
  /-- Messages received before the date. -/
  | before (date : Date)
  | not (key : SearchKey)
  deriving DecidableEq

/-- Whether the condition has a text that is not ASCII, so that the search has to name its
character set. -/
def SearchKey.needsUtf8 : SearchKey → Bool
  | «from» text => !Ascii.only text
  | «to» text => !Ascii.only text
  | subject text => !Ascii.only text
  | not key => needsUtf8 key
  | _ => false

/-- What can be asked about a message. -/
inductive FetchAttribute
  | uid
  | flags
  | envelope
  | bodyStructure
  | size
  | internalDate
  deriving DecidableEq, Repr

def FetchAttribute.text : FetchAttribute → String
  | uid => "UID"
  | flags => "FLAGS"
  | envelope => "ENVELOPE"
  | bodyStructure => "BODYSTRUCTURE"
  | size => "RFC822.SIZE"
  | internalDate => "INTERNALDATE"

def FetchAttribute.all : List FetchAttribute :=
  [uid, flags, envelope, bodyStructure, size, internalDate]

def FetchAttribute.read? (word : String) : Option FetchAttribute :=
  all.find? fun a => a.text == word

end Mailroom
