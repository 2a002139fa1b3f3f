import Mailroom.Text.Decimal
import Mailroom.Text.Split

/-! Names of hosts that a protected connection can be made to. -/
namespace Mailroom.HostName

def isLabelChar (c : Char) : Bool := c.isAlphanum || c == '_' || c == '-'

def isLabel (label : List Char) : Bool :=
  !label.isEmpty && label.length ≤ 63 && label.all isLabelChar && label.head? != some '-' &&
    label.getLast? != some '-'

def isNumber (label : List Char) : Bool := label.all Char.isDigit

/-- Whether labels, the last of which is no number, make up a name. -/
def areLabels (labels : List (List Char)) : Bool :=
  labels.all isLabel && labels.getLast?.any fun last => !isNumber last

/-- Whether a text is the name of a host. A dot may come last. -/
def isDnsName (cs : List Char) : Bool :=
  let labels := Split.pieces '.' cs
  cs.length ≤ 253 &&
    areLabels (if labels.getLast? = some [] then labels.dropLast else labels)

/-- Whether a piece of an address is a number of eight bits, without needless zeros. -/
def isByte (cs : List Char) : Bool :=
  match Decimal.digits? cs with
  | some n => n < 256 && (cs.length == 1 || cs.head? != some '0')
  | none => false

/-- Whether a text is an address of 32 bits. -/
def isIpv4 (cs : List Char) : Bool :=
  let pieces := Split.pieces '.' cs
  pieces.length == 4 && pieces.all isByte

/-- Whether a piece of an address is a number of 16 bits in hexadecimal. -/
def isGroup (cs : List Char) : Bool :=
  !cs.isEmpty && cs.length ≤ 4 &&
    cs.all fun c => c.isDigit || ('a' ≤ c && c ≤ 'f') || ('A' ≤ c && c ≤ 'F')

/-- How many groups of 16 bits pieces stand for. The last may be an address of 32 bits. -/
def groupCount? (pieces : List (List Char)) : Option Nat :=
  if pieces.all isGroup then some pieces.length
  else if pieces.dropLast.all isGroup && pieces.getLast?.any isIpv4 then some (pieces.length + 1)
  else none

/-- The two sides of the first pair of colons. -/
def splitAtGap : List Char → List Char → Option (List Char × List Char)
  | before, ':' :: ':' :: rest => some (before.reverse, rest)
  | before, c :: rest => splitAtGap (c :: before) rest
  | _, [] => none

/-- The pieces on one side of a gap, where there may be none. -/
def sidePieces (cs : List Char) : List (List Char) := if cs.isEmpty then [] else Split.pieces ':' cs

/-- Whether a text is an address of 128 bits. -/
def isIpv6 (cs : List Char) : Bool :=
  match splitAtGap [] cs with
  | none => groupCount? (Split.pieces ':' cs) == some 8
  | some (before, after) =>
    let left := sidePieces before
    left.all isGroup &&
      ((groupCount? (sidePieces after)).any fun right => left.length + right ≤ 7)

/-- Whether a protected connection can be made to a host of this name. -/
def isValid (host : String) : Bool :=
  let cs := host.toList
  isDnsName cs || isIpv4 cs || isIpv6 cs

end Mailroom.HostName
