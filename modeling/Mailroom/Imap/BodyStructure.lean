import Mailroom.Imap.Fault
import Mailroom.Imap.Value

/-! The parts a message is made of.

A message is one part, or a container of parts, or carries another message. The server
describes it as a list of values; what a list describes is worked out from the inside, each
list as if it were a body of its own, so that a container finds its parts ready. -/
namespace Mailroom

/-- A named setting of a part. -/
abbrev Parameter := String × String

/-- The value of a setting, its name in any letter case. The first of several counts. -/
def Parameter.find? (name : String) (parameters : List Parameter) : Option String :=
  (parameters.find? fun p => Ascii.same p.1 name).map Prod.snd

/-- How a part wants to be shown. -/
structure Disposition where
  kind : String
  parameters : List Parameter
  deriving DecidableEq, Repr

/-- Whether the part wants to be kept apart from the text. -/
def Disposition.isAttachment (d : Disposition) : Bool := Ascii.same d.kind "attachment"

/-- What a message or one of its parts is made of. -/
inductive BodyStructure
  /-- A part without parts. -/
  | single (mediaType subtype : String) (parameters : List Parameter) (size : Nat)
      (disposition : Option Disposition)
  /-- A message carried in a message. -/
  | message (size : Nat) (body : BodyStructure) (disposition : Option Disposition)
  /-- A container of parts. -/
  | multipart (subtype : String) (parts : List BodyStructure) (disposition : Option Disposition)
  deriving BEq, Repr, Inhabited

namespace BodyStructure

/-- How the part wants to be shown, if it says so. -/
def disposition? : BodyStructure → Option Disposition
  | single _ _ _ _ d => d
  | message _ _ d => d
  | multipart _ _ d => d

/-- The setting of a part without parts. -/
def parameter? (name : String) : BodyStructure → Option String
  | single _ _ parameters _ _ => Parameter.find? name parameters
  | _ => none

/-- Names and values in turn. A last name without a value is left out, and so is every pair
that is not two texts. -/
def pairs : List Value → List Parameter
  | name :: value :: rest =>
    match name.text?, value.text? with
    | some n, some v => (n, v) :: pairs rest
    | _, _ => pairs rest
  | _ => []

/-- The settings in a list. -/
def parametersOf (v : Option Value) : List Parameter := pairs ((v.bind Value.items?).getD [])

/-- The disposition a value describes: a list of kind and settings, or the kind alone. -/
def dispositionOf (v : Option Value) : Option Disposition :=
  match v with
  | some (.list items) => do
    let kind ← items[0]?.bind Value.text?
    pure ⟨kind, parametersOf items[1]?⟩
  | some v => v.text?.map fun kind => ⟨kind, []⟩
  | none => none

/-- What a list of values describes, if it describes a body. -/
abbrev Reading := Except Reason BodyStructure

/-- A member of a list: itself, and if it is a list what that describes. -/
abbrev Member := Value × Option Reading

/-- The parts in front of a container's other members, and those others. -/
def leadingParts : List Member → Except Reason (List BodyStructure × List Member)
  | (_, some part) :: rest => do
    let part ← part
    let (parts, others) ← leadingParts rest
    pure (part :: parts, others)
  | others => pure ([], others)

/-- The container that a list beginning with parts describes. -/
def container (members : List Member) : Reading := do
  let (parts, others) ← leadingParts members
  let values := others.map Prod.fst
  match values[0]?.bind Value.text? with
  | none => throw .multipartWithoutSubtype
  | some subtype => pure (multipart subtype parts (dispositionOf values[2]?))

/-- The text at a place, which has to be there. -/
def requiredText (values : List Value) (i : Nat) (what : String) : Except Reason String :=
  match values[i]?.bind Value.text? with
  | some text => pure text
  | none => throw (.bodyWithout what)

/-- The part that a list beginning with a media type describes. The size is the seventh
member. The disposition follows the members that only some media types have. -/
def leaf (members : List Member) : Reading := do
  let values := members.map Prod.fst
  let mediaType ← requiredText values 0 "media type"
  let subtype ← requiredText values 1 "media subtype"
  let size := (values[6]?.bind Value.number?).getD 0
  let isMessage := Ascii.same mediaType "MESSAGE" && Ascii.same subtype "RFC822"
  match isMessage, members[8]? with
  | true, some (_, some inner) => pure (message size (← inner) (dispositionOf values[11]?))
  | _, _ =>
    let place := if Ascii.same mediaType "TEXT" then 9 else 8
    pure (single mediaType subtype (parametersOf values[2]?) size (dispositionOf values[place]?))

/-- The body that a list of members describes. -/
def assemble : List Member → Reading
  | members@((_, some _) :: _) => container members
  | members => leaf members

mutual

/-- What a value describes, if it is a list. -/
def read? : Value → Option Reading
  | .list items => some (assemble (readMembers items))
  | _ => none

/-- The members of a list with what they describe. -/
def readMembers : List Value → List Member
  | [] => []
  | v :: rest => (v, read? v) :: readMembers rest

end

/-- The body that the values of a list describe. -/
def ofValues (values : List Value) : Reading := assemble (readMembers values)

end BodyStructure

end Mailroom
