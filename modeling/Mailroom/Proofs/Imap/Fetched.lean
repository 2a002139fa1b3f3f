import Mailroom.Proofs.Imap.Statements

/-! What is told about a message, as servers write it and as it is read.

For each thing that is told there is a relation that says which values tell it: a string has two forms,
what is missing is the word for nothing, and a member that the client does not keep may be any value.
`FetchItem.AllToldBy` sets the items one after the other, with names that the client does not know and
excerpts of bodies between them. -/
namespace Mailroom
open Cursor Value

/-! ### Texts -/

namespace Value
variable {s : String} {o : Option String} {v : Value}

/-- A string with the text. -/
inductive IsText (s : String) : Value → Prop
  | quoted : IsText s (.quoted (Utf8.encode s))
  | literal : IsText s (.literal (Utf8.encode s))

/-- A string with the text, or nothing if there is none. -/
inductive IsOptional : Option String → Value → Prop
  | absent : IsOptional none .absent
  | text {s : String} {v : Value} (h : IsText s v) : IsOptional (some s) v

theorem IsText.text?_eq (h : IsText s v) : v.text? = some s := by
  cases h <;> exact congrArg some (Utf8.lossy_encode s)

theorem IsOptional.text?_eq (h : IsOptional o v) : v.text? = o := by
  cases h with
  | absent => rfl
  | text h => exact h.text?_eq

end Value

/-! ### The header fields -/

/-- A list of name, route, and the two sides of the `@`. The side before it is there. -/
inductive Address.ToldBy (a : Address) : Value → Prop
  | list {name route mailbox host : Value} (hname : IsOptional a.name name)
    (hmailbox : IsOptional a.mailbox mailbox) (hhost : IsOptional a.host host) (hhas : a.mailbox.isSome = true) :
    ToldBy a (.list [name, route, mailbox, host])

/-- A list of addresses, or nothing if there are none. -/
inductive Address.AllToldBy : List Address → Value → Prop
  | absent : AllToldBy [] .absent
  | list {addresses : List Address} {items : List Value} (h : List.Forall₂ Address.ToldBy addresses items) :
    AllToldBy addresses (.list items)

theorem Address.ofValue_toldBy {addresses : List Address} {v : Value} (h : AllToldBy addresses v) :
    ofValue (some v) = addresses := by
  cases h with
  | absent => rfl
  | @list addresses items h =>
    induction h with
    | nil => rfl
    | @cons a v addresses items ha h ih =>
      cases ha with
      | list hname hmailbox hhost hhas =>
        simp only [ofValue, Option.bind_some, Value.items?, Option.getD_some] at ih ⊢
        simp [Value.items?, ofFields, hname.text?_eq, hmailbox.text?_eq, hhost.text?_eq, hhas, ih]

/-- A list of ten fields. -/
inductive Envelope.ToldBy (e : Envelope) : Value → Prop
  | list {date subject author sender replyTo recipients cc bcc inReplyTo messageId : Value}
    (hdate : IsOptional e.date date) (hsubject : IsOptional e.subject subject)
    (hauthor : Address.AllToldBy e.from author) (hsender : Address.AllToldBy e.sender sender)
    (hreply : Address.AllToldBy e.replyTo replyTo) (hto : Address.AllToldBy e.to recipients)
    (hcc : Address.AllToldBy e.cc cc) (hbcc : Address.AllToldBy e.bcc bcc)
    (hanswered : IsOptional e.inReplyTo inReplyTo) (hid : IsOptional e.messageId messageId) :
    ToldBy e (.list [date, subject, author, sender, replyTo, recipients, cc, bcc, inReplyTo, messageId])

theorem Envelope.ofValues_toldBy {e : Envelope} {v : Value} (h : ToldBy e v) :
    ∃ fields, v = .list fields ∧ ofValues fields = e := by
  cases h with
  | list hdate hsubject hauthor hsender hreply hto hcc hbcc hanswered hid =>
    refine ⟨_, rfl, ?_⟩
    simp [ofValues, hdate.text?_eq, hsubject.text?_eq, hanswered.text?_eq, hid.text?_eq,
      Address.ofValue_toldBy hauthor, Address.ofValue_toldBy hsender, Address.ofValue_toldBy hreply,
      Address.ofValue_toldBy hto, Address.ofValue_toldBy hcc, Address.ofValue_toldBy hbcc]

/-! ### Parts -/

/-- Names and values in turn. -/
inductive Parameter.InTurn : List Parameter → List Value → Prop
  | nil : InTurn [] []
  | cons {p : Parameter} {parameters : List Parameter} {name value : Value} {rest : List Value}
    (hname : IsText p.1 name) (hvalue : IsText p.2 value) (h : InTurn parameters rest) :
    InTurn (p :: parameters) (name :: value :: rest)

/-- A list of names and values in turn, or nothing if there are none. -/
inductive Parameter.AllToldBy : List Parameter → Value → Prop
  | absent : AllToldBy [] .absent
  | list {parameters : List Parameter} {items : List Value} (h : InTurn parameters items) :
    AllToldBy parameters (.list items)

/-- A list of kind and settings, or nothing if the part does not say how it wants to be shown. -/
inductive Disposition.ToldBy : Option Disposition → Value → Prop
  | absent : ToldBy none .absent
  | list {d : Disposition} {kind settings : Value} (hkind : IsText d.kind kind)
    (hsettings : Parameter.AllToldBy d.parameters settings) : ToldBy (some d) (.list [kind, settings])

namespace BodyStructure

/-- How many members the media type has of its own, between the size and the check sum. -/
def ownMembers (mediaType : String) : Nat := if Ascii.same mediaType "TEXT" then 1 else 0

/-- Whether a part of this type carries a message. -/
def carries (mediaType subtype : String) : Bool :=
  Ascii.same mediaType "MESSAGE" && Ascii.same subtype "RFC822"

mutual

/-- A list that tells of a part or a container of parts. -/
inductive ToldBy : BodyStructure → Value → Prop
  | single {mediaType subtype : String} {parameters : List Parameter} {size : Nat}
    {disposition : Option Disposition} {type kind settings id description encoding check shown : Value}
    {own more : List Value} (htype : IsText mediaType type) (hkind : IsText subtype kind)
    (hother : carries mediaType subtype = false) (hsettings : Parameter.AllToldBy parameters settings)
    (hown : own.length = ownMembers mediaType) (hshown : Disposition.ToldBy disposition shown) :
    ToldBy (.single mediaType subtype parameters size disposition)
      (.list (type :: kind :: settings :: id :: description :: encoding :: .number size ::
        (own ++ check :: shown :: more)))
  | message {mediaType subtype : String} {size : Nat} {body : BodyStructure}
    {disposition : Option Disposition}
    {type kind settings id description encoding envelope inner lines check shown : Value} {more : List Value}
    (htype : IsText mediaType type) (hkind : IsText subtype kind) (hcarries : carries mediaType subtype = true)
    (hbody : ToldBy body inner) (hshown : Disposition.ToldBy disposition shown) :
    ToldBy (.message size body disposition)
      (.list (type :: kind :: settings :: id :: description :: encoding :: .number size ::
        envelope :: inner :: lines :: check :: shown :: more))
  | multipart {subtype : String} {part : BodyStructure} {parts : List BodyStructure}
    {disposition : Option Disposition} {items : List Value} {kind settings shown : Value} {more : List Value}
    (hparts : PartsToldBy (part :: parts) items) (hkind : IsText subtype kind)
    (hshown : Disposition.ToldBy disposition shown) :
    ToldBy (.multipart subtype (part :: parts) disposition)
      (.list (items ++ kind :: settings :: shown :: more))

/-- Parts, one after the other. -/
inductive PartsToldBy : List BodyStructure → List Value → Prop
  | nil : PartsToldBy [] []
  | cons {part : BodyStructure} {parts : List BodyStructure} {v : Value} {items : List Value}
    (hpart : ToldBy part v) (h : PartsToldBy parts items) : PartsToldBy (part :: parts) (v :: items)

end

variable {parameters : List Parameter} {disposition : Option Disposition} {items values : List Value}
  {mediaType subtype s : String} {type kind v : Value} {size : Nat} {body : BodyStructure}

theorem parametersOf_toldBy (h : Parameter.AllToldBy parameters v) : parametersOf (some v) = parameters := by
  cases h with
  | absent => rfl
  | @list parameters items h =>
    show pairs items = parameters
    induction h with
    | nil => rfl
    | cons hname hvalue h ih => rw [pairs, hname.text?_eq, hvalue.text?_eq, ih]

theorem dispositionOf_toldBy (h : Disposition.ToldBy disposition v) : dispositionOf (some v) = disposition := by
  cases h with
  | absent => rfl
  | list hkind hsettings =>
    simp [dispositionOf, hkind.text?_eq, parametersOf_toldBy hsettings]

theorem read?_text (h : IsText s v) : read? v = none := by
  cases h <;> simp [read?]

theorem readMembers_fst (values : List Value) : (readMembers values).map Prod.fst = values := by
  induction values with
  | nil => rfl
  | cons v values ih => rw [readMembers, List.map_cons, ih]

theorem requiredText_eq {i : Nat} {what : String} (h : values[i]?.bind Value.text? = some s) :
    requiredText values i what = .ok s := by
  rw [requiredText, h]
  rfl

/-- What the places of a list say about a part, once its type is known. -/
theorem leaf_eq (htype : values[0]?.bind Value.text? = some mediaType)
    (hkind : values[1]?.bind Value.text? = some subtype) (hsize : values[6]?.bind Value.number? = some size) :
    leaf (readMembers values) =
      match carries mediaType subtype, (readMembers values)[8]? with
      | true, some (_, some inner) => inner.map fun body => message size body (dispositionOf values[11]?)
      | _, _ => .ok (single mediaType subtype (parametersOf values[2]?) size
          (dispositionOf values[8 + ownMembers mediaType]?)) := by
  have hplace : 8 + ownMembers mediaType = if Ascii.same mediaType "TEXT" then 9 else 8 := by
    rw [ownMembers]
    split <;> rfl
  rw [leaf]
  dsimp only
  rw [readMembers_fst, requiredText_eq htype, requiredText_eq hkind, hsize, hplace]
  rfl

/-- A list that begins with a text tells of one part. -/
theorem ofValues_leaf (htype : IsText mediaType type) :
    ofValues (type :: values) = leaf (readMembers (type :: values)) := by
  rw [ofValues, readMembers, read?_text htype]
  rfl

/-- Parts stand in front of the text that ends them. -/
theorem leadingParts_text (hkind : IsText subtype kind) :
    leadingParts (readMembers (kind :: values)) = .ok ([], readMembers (kind :: values)) := by
  rw [readMembers, read?_text hkind]
  rfl

theorem leadingParts_cons {parts : List BodyStructure} {others : List Member} (hpart : read? v = some (.ok body))
    (h : leadingParts (readMembers values) = .ok (parts, others)) :
    leadingParts (readMembers (v :: values)) = .ok (body :: parts, others) := by
  rw [readMembers, hpart, leadingParts, h]
  rfl

theorem ofValues_container {parts : List BodyStructure} {rest : List Value}
    (hpart : read? v = some (.ok body)) (hkind : IsText subtype kind)
    (hparts : leadingParts (readMembers (v :: values)) = .ok (parts, readMembers (kind :: rest)))
    (hshown : dispositionOf rest[1]? = disposition) :
    ofValues (v :: values) = .ok (.multipart subtype parts disposition) := by
  have hcontainer : ofValues (v :: values) = container (readMembers (v :: values)) := by
    rw [ofValues, readMembers, hpart]
    rfl
  have htext : (kind :: rest)[0]?.bind Value.text? = some subtype := hkind.text?_eq
  have hplace : (kind :: rest)[2]? = rest[1]? := rfl
  rw [hcontainer, container, hparts]
  simp only [bind, Except.bind, readMembers_fst, htext, hplace, hshown]
  rfl

mutual

/-- A list is read as the part that it tells of. -/
theorem read?_toldBy {b : BodyStructure} {v : Value} (h : ToldBy b v) : read? v = some (.ok b) := by
  cases h with
  | @single mediaType subtype parameters size disposition type kind settings id description encoding check shown
      own more htype hkind hother hsettings hown hshown =>
    have hplace : (own ++ check :: shown :: more)[ownMembers mediaType + 1]? = some shown := by
      rw [← hown, List.getElem?_append_right (by omega)]
      simp
    have hthere : (type :: kind :: settings :: id :: description :: encoding :: .number size ::
        (own ++ check :: shown :: more))[8 + ownMembers mediaType]? = some shown := by
      rw [← hplace, Nat.add_comm]
      rfl
    refine congrArg some ((ofValues_leaf htype).trans (Eq.trans (leaf_eq htype.text?_eq hkind.text?_eq rfl) ?_))
    rw [hother, hthere, dispositionOf_toldBy hshown]
    exact congrArg (fun p => Except.ok (single mediaType subtype p size disposition)) (parametersOf_toldBy hsettings)
  | @message mediaType subtype size body disposition type kind settings id description encoding envelope inner
      lines check shown more htype hkind hcarries hbody hshown =>
    have hinner : (readMembers (type :: kind :: settings :: id :: description :: encoding :: .number size ::
        envelope :: inner :: lines :: check :: shown :: more))[8]? = some (inner, some (.ok body)) :=
      congrArg (fun reading => some (inner, reading)) (read?_toldBy hbody)
    refine congrArg some ((ofValues_leaf htype).trans (Eq.trans (leaf_eq htype.text?_eq hkind.text?_eq rfl) ?_))
    rw [hcarries, hinner]
    exact congrArg (fun d => Except.ok (message size body d)) (dispositionOf_toldBy hshown)
  | @multipart subtype part parts disposition items kind settings shown more hparts hkind hshown =>
    cases hparts with
    | cons hpart hparts =>
      have hfirst := read?_toldBy hpart
      have hrest := leadingParts_toldBy hparts hkind (settings :: shown :: more)
      exact congrArg some
        (ofValues_container hfirst hkind (leadingParts_cons hfirst hrest) (dispositionOf_toldBy hshown))

theorem leadingParts_toldBy {parts : List BodyStructure} {items : List Value} {subtype : String} {kind : Value}
    (h : PartsToldBy parts items) (hkind : IsText subtype kind) (rest : List Value) :
    leadingParts (readMembers (items ++ kind :: rest)) = .ok (parts, readMembers (kind :: rest)) := by
  cases h with
  | nil => exact leadingParts_text hkind
  | cons hpart h => exact leadingParts_cons (read?_toldBy hpart) (leadingParts_toldBy h hkind rest)

end

theorem ofValues_toldBy {b : BodyStructure} {v : Value} (h : ToldBy b v) :
    ∃ fields, v = .list fields ∧ ofValues fields = .ok b := by
  have hread := read?_toldBy h
  cases h <;> exact ⟨_, rfl, Option.some.inj hread⟩

end BodyStructure

/-! ### Items -/

namespace FetchItem

/-- The name of an item, in capitals, and the value under it. -/
inductive ToldBy : FetchItem → String → Value → Prop
  | uid (uid : Uid) : ToldBy (.uid uid) "UID" (.number uid.value)
  | flags {flags : List Flag} {words : List String} (h : List.Forall₂ Flag.Named flags words) :
    ToldBy (.flags flags) "FLAGS" (.list (words.map .atom))
  | size (n : Nat) : ToldBy (.size n) "RFC822.SIZE" (.number n)
  | internalDate {text : String} {v : Value} (h : IsText text v) : ToldBy (.internalDate text) "INTERNALDATE" v
  | envelope {e : Envelope} {v : Value} (h : e.ToldBy v) : ToldBy (.envelope e) "ENVELOPE" v
  | bodyStructure {b : BodyStructure} {v : Value} (h : b.ToldBy v) : ToldBy (.bodyStructure b) "BODYSTRUCTURE" v
  | body {b : BodyStructure} {v : Value} (h : b.ToldBy v) : ToldBy (.bodyStructure b) "BODY" v

/-- The names that the client knows. -/
def names : List String := ["UID", "FLAGS", "RFC822.SIZE", "INTERNALDATE", "ENVELOPE", "BODYSTRUCTURE", "BODY"]

/-- Whether it says which section of a body is meant. -/
def isSection : Value → Bool
  | .bracketed _ => true
  | _ => false

/-- Items one after the other. Between them are names that the client does not know, each with a value, and
excerpts of bodies, which say where they begin or not. -/
inductive AllToldBy : List FetchItem → List Value → Prop
  | nil : AllToldBy [] []
  | item {item : FetchItem} {items : List FetchItem} {name word : String} {v : Value} {rest : List Value}
    (hname : Ascii.upper word = name) (hitem : ToldBy item name v) (h : AllToldBy items rest) :
    AllToldBy (item :: items) (.atom word :: v :: rest)
  | unknown {items : List FetchItem} {word : String} {v : Value} {rest : List Value}
    (hname : Ascii.upper word ∉ names) (hv : isSection v = false) (h : AllToldBy items rest) :
    AllToldBy items (.atom word :: v :: rest)
  | excerpt {items : List FetchItem} {word : String} {place : List Value} {payload : Value} {rest : List Value}
    (hpayload : isOrigin payload = false) (h : AllToldBy items rest) :
    AllToldBy items (.atom word :: .bracketed place :: payload :: rest)
  | excerptFrom {items : List FetchItem} {word : String} {place : List Value} {origin payload : Value}
    {rest : List Value} (horigin : isOrigin origin = true) (h : AllToldBy items rest) :
    AllToldBy items (.atom word :: .bracketed place :: origin :: payload :: rest)

variable {item : FetchItem} {items : List FetchItem} {name word : String} {v : Value} {values rest : List Value}

theorem flagsOf_atoms {flags : List Flag} {words : List String} (h : List.Forall₂ Flag.Named flags words) :
    flagsOf (.list (words.map .atom)) = flags := by
  show (Response.texts (words.map .atom)).map Flag.read = flags
  rw [texts_atoms, map_named h fun _ _ => Flag.read_named]

theorem ofPair_toldBy (h : ToldBy item name v) : ofPair name v = .ok (some item) ∧ isSection v = false := by
  cases h with
  | uid u =>
    have hvalue : Uid.ofNat? u.value = some u := dif_pos ⟨u.positive, u.bounded⟩
    simp only [ofPair, Value.number?, Option.bind_some, hvalue]
    exact ⟨rfl, rfl⟩
  | flags h => exact ⟨congrArg (fun read => Except.ok (some (flags read))) (flagsOf_atoms h), rfl⟩
  | size n => exact ⟨rfl, rfl⟩
  | internalDate h =>
    simp only [ofPair, h.text?_eq]
    cases h <;> exact ⟨rfl, rfl⟩
  | envelope h =>
    obtain ⟨fields, rfl, hfields⟩ := Envelope.ofValues_toldBy h
    exact ⟨congrArg (fun e => Except.ok (some (envelope e))) hfields, rfl⟩
  | bodyStructure h
  | body h =>
    obtain ⟨fields, rfl, hfields⟩ := BodyStructure.ofValues_toldBy h
    exact ⟨congrArg (·.map fun b => some (bodyStructure b)) hfields, rfl⟩

theorem ofPair_unknown (h : name ∉ names) : ofPair name v = .ok none := by
  unfold ofPair
  split <;> first | rfl | exact absurd (by decide) h

theorem readAll_pair (hv : isSection v = false) :
    readAll (.atom word :: v :: rest) =
      (ofPair (Ascii.upper word) v).bind fun item => (readAll rest).map fun items => item.toList ++ items := by
  cases v with
  | bracketed => cases hv
  | _ => rw [readAll]; rfl

theorem readAll_toldBy (h : AllToldBy items values) : readAll values = .ok items := by
  induction h with
  | nil => rw [readAll]; rfl
  | item hname hitem h ih =>
    obtain ⟨hpair, hv⟩ := ofPair_toldBy hitem
    rw [readAll_pair hv, hname, hpair, ih]
    rfl
  | unknown hname hv h ih =>
    rw [readAll_pair hv, ofPair_unknown hname, ih]
    rfl
  | @excerpt items word place payload rest hpayload h ih =>
    cases rest with
    | nil =>
      cases h
      rw [readAll]
      rfl
    | cons next rest =>
      rw [readAll]
      dsimp only [text?]
      rw [hpayload]
      exact ih
  | excerptFrom horigin h ih =>
    rw [readAll]
    dsimp only [text?]
    rw [horigin]
    exact ih

end FetchItem

/-! ### The response -/

namespace Response
open BodyStructure

/-- The forms of a response that tells items about message `n`, up to the end of its line. -/
inductive Fetched (n : Nat) (items : List FetchItem) : Bytes → Prop
  | line {word : String} {values : List Value} {inside : Bytes} (hword : Ascii.upper word = "FETCH")
    (htold : FetchItem.AllToldBy items values) (hfits : ∀ v ∈ values, Fits maxDepth v)
    (hinside : Separated Writes values inside) :
    Fetched n items (Octet.star :: Octet.space :: (Octet.ofDigits n ++ Octet.space ::
      (Utf8.encode word ++ Octet.space :: Octet.openParen :: (inside ++ [Octet.closeParen]))))

variable {n : Nat} {items : List FetchItem} {bytes : Bytes}

/-- Whatever form a server gives to the items about a message, they are read as they are, in their order. -/
theorem read_fetched (hn : n < UInt32.size) (h : Fetched n items bytes) (hend : bytes.length < UInt64.size) :
    read (bytes ++ Octet.crlf) = .ok (.untagged (.fetch n items)) := by
  cases h with
  | @line word values inside hword htold hfits hinside =>
    have hspaceless : Spaceless word := by
      refine .of_upper ?_
      rw [hword]
      decide +kernel
    have hunderstood : understood (FetchItem.readAll values) = pure items := by
      rw [FetchItem.readAll_toldBy htold]
      rfl
    refine read_of_takes (response_star (untaggedData_numbered hn ?_)) hend
    show Takes _ ([Octet.space] ++ (Utf8.encode word ++ _)) _ _
    refine (expect_takes _ _).bind ((word_takes hspaceless (.inl rfl)).bind ?_)
    dsimp only
    rw [hword]
    refine (spacedList_takes hinside hfits _).last ?_
    rw [hunderstood]
    rfl

/-- A text, a letter and a document in one message. -/
def parcel : BodyStructure :=
  .multipart "MIXED" [.single "TEXT" "PLAIN" [("CHARSET", "UTF-8")] 20 none,
    .message 300 (.single "text" "HTML" [] 100 none) none,
    .single "APPLICATION" "PDF" [] 5000 (some ⟨"ATTACHMENT", [("FILENAME", "plan.pdf")]⟩)] none

/-- The values that tell of it. -/
def parcelValue : Value :=
  let text (s : String) : Value := .quoted (Utf8.encode s)
  let plain : Value := .list (text "TEXT" :: text "PLAIN" :: .list [text "CHARSET", text "UTF-8"] :: .absent ::
    .absent :: text "7BIT" :: .number 20 :: ([.number 1] ++ .absent :: .absent :: [.absent, .absent]))
  let html : Value := .list (text "text" :: text "HTML" :: .absent :: .absent :: .absent :: text "7BIT" ::
    .number 100 :: ([.number 4] ++ .absent :: .absent :: []))
  let letter : Value := .list [text "message", text "rfc822", .absent, .absent, .absent, text "7BIT", .number 300,
    .list [], html, .number 12, .absent, .absent]
  let document : Value := .list (text "APPLICATION" :: text "PDF" :: .absent :: text "<1@b>" :: .absent ::
    text "BASE64" :: .number 5000 :: ([] ++ .absent :: .list [text "ATTACHMENT", .list [text "FILENAME",
      .literal (Utf8.encode "plan.pdf")]] :: []))
  .list ([plain, letter, document] ++ text "MIXED" :: .absent :: .absent :: [.absent, .absent])

theorem parcel_toldBy : parcel.ToldBy parcelValue := by
  have hplain : carries "TEXT" "PLAIN" = false ∧ ownMembers "TEXT" = 1 := by decide +kernel
  have hhtml : carries "text" "HTML" = false ∧ ownMembers "text" = 1 := by decide +kernel
  have hdocument : carries "APPLICATION" "PDF" = false ∧ ownMembers "APPLICATION" = 0 := by decide +kernel
  have hletter : carries "message" "rfc822" = true := by decide +kernel
  refine .multipart (.cons ?_ (.cons ?_ (.cons ?_ .nil))) .quoted .absent
  · exact .single .quoted .quoted hplain.1 (.list (.cons .quoted .quoted .nil)) hplain.2.symm .absent
  · exact .message .quoted .quoted hletter
      (.single .quoted .quoted hhtml.1 .absent hhtml.2.symm .absent) .absent
  · exact .single .quoted .quoted hdocument.1 .absent hdocument.2.symm
      (.list .quoted (.list (.cons .quoted .literal .nil)))

/-- Its header fields. -/
def parcelEnvelope : Envelope where
  subject := some "Plans"
  «from» := [⟨none, some "ada", some "example.org"⟩]

/-- The values that tell of them. -/
def parcelEnvelopeValue : Value :=
  .list [.absent, .quoted (Utf8.encode "Plans"), .list [.list [.absent, .absent, .quoted (Utf8.encode "ada"),
    .literal (Utf8.encode "example.org")]], .absent, .absent, .absent, .absent, .absent, .absent, .absent]

theorem parcelEnvelope_toldBy : parcelEnvelope.ToldBy parcelEnvelopeValue := by
  have hauthor : Address.ToldBy ⟨none, some "ada", some "example.org"⟩
      (.list [.absent, .absent, .quoted (Utf8.encode "ada"), .literal (Utf8.encode "example.org")]) :=
    .list .absent (.text .quoted) (.text .literal) rfl
  exact .list .absent (.text .quoted) (.list (.cons hauthor .nil)) .absent .absent .absent .absent .absent .absent
    .absent

/-- What is told about the message. -/
def parcelItems : List FetchItem :=
  [.uid ⟨7, by decide, by decide⟩, .flags [.seen, .keyword "$Label"], .size 6000, .envelope parcelEnvelope,
    .bodyStructure parcel]

/-- The values that tell it, with a name that the client does not know and an excerpt among them. -/
def parcelValues : List Value :=
  [.atom "UID", .number 7, .atom "X-GM-MSGID", .number 99, .atom "Flags",
    .list (["\\seen", "$Label"].map .atom), .atom "BODY", .bracketed [.atom "HEADER"], .atom "<0>",
    .literal (Utf8.encode "UID 8)"), .atom "RFC822.SIZE", .number 6000, .atom "ENVELOPE", parcelEnvelopeValue,
    .atom "BODYSTRUCTURE", parcelValue]

theorem parcelItems_toldBy : FetchItem.AllToldBy parcelItems parcelValues := by
  have hlabel : ∀ flag : Flag, flag.isKeyword = false → Ascii.upper "$Label" ≠ Ascii.upper flag.text := by
    intro flag hflag
    cases flag <;> first | decide +kernel | cases hflag
  have hflags : List.Forall₂ Flag.Named [.seen, .keyword "$Label"] ["\\seen", "$Label"] :=
    .cons (.system rfl (by decide +kernel)) (.cons (.keyword hlabel) .nil)
  refine .item (by decide +kernel) (.uid _) (.unknown (by decide +kernel) rfl ?_)
  refine .item (by decide +kernel) (.flags hflags) (.excerptFrom (by decide +kernel) ?_)
  refine .item (by decide +kernel) (.size 6000) (.item (by decide +kernel) (.envelope parcelEnvelope_toldBy) ?_)
  exact .item (by decide +kernel) (.bodyStructure parcel_toldBy) .nil

/-- It is read from the line that is usually written for it, where a keyword may be in small letters. -/
theorem read_fetched_parcel :
    read (Octet.star :: Octet.space :: (Octet.ofDigits 12 ++ Octet.space :: (Utf8.encode "fetch" ++ Octet.space ::
        Octet.openParen :: (Value.wireAll parcelValues ++ [Octet.closeParen]))) ++ Octet.crlf) =
      .ok (.untagged (.fetch 12 parcelItems)) := by
  have hfits : ∀ v ∈ parcelValues, Fits maxDepth v := (areReadable_iff _ _).mp (by decide +kernel)
  exact read_fetched (by decide) (.line (by decide +kernel) parcelItems_toldBy hfits (separated_wireAll _))
    (by decide +kernel)

end Response

end Mailroom
