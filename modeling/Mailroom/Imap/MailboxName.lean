import Mailroom.Text.Base64
import Mailroom.Text.Utf16

/-! Mailbox names on the wire.

A name travels in ASCII: characters outside the printable range are shifted into runs of
base64 between `&` and `-`, and an ampersand is written `&-`. Reading follows the same
shifts; a run that is not base64 cannot be read at all. -/
namespace Mailroom.MailboxName

/-- Whether a character travels as it is. -/
def isDirect (c : Char) : Bool := 0x20 ≤ c.toNat && c.toNat ≤ 0x7f

/-- The solidus of base64 would end up in the hierarchy, so a comma takes its place. -/
def sealSign (c : Char) : Char := if c = '/' then ',' else c

/-- The base64 sign a written sign stands for. -/
def openSign (c : Char) : Char := if c = ',' then '/' else c

/-- A run of shifted characters, kept latest first, as it is written. -/
def shift (run : List Char) : List Char :=
  if run.isEmpty then []
  else '&' :: (Base64.encode (Utf16.encode run.reverse)).map sealSign ++ ['-']

/-- The written form of the characters, after a run that is still open. -/
def encodeFrom (run : List Char) : List Char → List Char
  | [] => shift run
  | c :: rest =>
    if isDirect c then
      shift run ++ (if c = '&' then ['&', '-'] else [c]) ++ encodeFrom [] rest
    else encodeFrom (c :: run) rest

/-- The name as it travels. -/
def encode (name : String) : String := String.ofList (encodeFrom [] name.toList)

/-- The characters of one run, given what stands between `&` and `-`. -/
def unshift (run : List Char) : Option (List Char) :=
  if run.isEmpty then some ['&']
  else
    let signs := run.map openSign
    let padding := List.replicate ((4 - signs.length % 4) % 4) '='
    (Base64.decode (signs ++ padding)).map Utf16.decode

/-- The characters of a written name: outside a run, or inside one whose signs are kept
latest first. A run that is never closed stands for itself. -/
def decodeFrom : Option (List Char) → List Char → Option (List Char)
  | none, [] => some []
  | some run, [] => some ('&' :: run.reverse)
  | none, c :: rest =>
    if c = '&' then decodeFrom (some []) rest else (decodeFrom none rest).map (c :: ·)
  | some run, c :: rest =>
    if c = '-' then do
      let chars ← unshift run.reverse
      let tail ← decodeFrom none rest
      some (chars ++ tail)
    else decodeFrom (some (c :: run)) rest

/-- The name a written form stands for, unless a run in it is not base64. -/
def decode (written : String) : Option String :=
  (decodeFrom none written.toList).map String.ofList

end Mailroom.MailboxName
