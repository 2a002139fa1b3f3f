import Mailroom.Imap.BodyStructure
import Mailroom.Imap.Envelope
import Mailroom.Imap.Flag
import Mailroom.Imap.Uid

/-! What a server tells about one message. -/
namespace Mailroom

/-- One thing told about a message. -/
inductive FetchItem
  | uid (uid : Uid)
  | flags (flags : List Flag)
  | envelope (envelope : Envelope)
  | bodyStructure (body : BodyStructure)
  | size (bytes : Nat)
  /-- When the server received the message. -/
  | internalDate (text : String)
  deriving BEq

namespace FetchItem

/-- The flags in a list. What is not a word or string in it is left out. -/
def flagsOf (v : Value) : List Flag := ((v.items?.getD []).filterMap Value.text?).map Flag.read

/-- The item that a value under a name tells, if the client has a use for it. -/
def ofPair (name : String) (v : Value) : Except Reason (Option FetchItem) :=
  match name with
  | "UID" =>
    match v.number?.bind Uid.ofNat? with
    | some u => pure (some (uid u))
    | none => throw .badUid
  | "FLAGS" => pure (some (flags (flagsOf v)))
  | "RFC822.SIZE" => pure (v.number?.map size)
  | "INTERNALDATE" => pure (v.text?.map internalDate)
  | "ENVELOPE" => pure (v.items?.map fun fields => envelope (Envelope.ofValues fields))
  | "BODYSTRUCTURE" | "BODY" =>
    match v.items? with
    | some fields => do pure (some (bodyStructure (← BodyStructure.ofValues fields)))
    | none => pure none
  | _ => pure none

/-- Whether a value says where an excerpt of a body begins. -/
def isOrigin : Value → Bool
  | .atom word => Ascii.startsWith "<" word
  | _ => false

/-- The items in a list of names and values in turn. An excerpt of a body, which has a
section in brackets after its name, is passed over. -/
def readAll : List Value → Except Reason (List FetchItem)
  | [] => pure []
  | name :: rest =>
    match name.text? with
    | none => throw .itemWithoutName
    | some text =>
      let name := Ascii.upper text
      match rest with
      | [] => throw (.itemWithoutValue name)
      | .bracketed _ :: [] => pure []
      | .bracketed _ :: _ :: [] => pure []
      | .bracketed _ :: first :: second :: rest =>
        if isOrigin first then readAll rest else readAll (second :: rest)
      | v :: rest => do
        let item ← ofPair name v
        let items ← readAll rest
        pure (item.toList ++ items)

end FetchItem

end Mailroom
