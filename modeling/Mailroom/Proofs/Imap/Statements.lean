import Mailroom.Proofs.Imap.Phrases
import Mailroom.Proofs.Text.Words

/-! Responses as servers write them, and as they are read.

A server chooses letter case, the form of a string and how far apart it sets the members of a list, so that
each response has many forms. `Response.Written` lists them, and `read_written` says what is read of each:
the response, except for capabilities that a code names by a number or by the word for nothing. -/
namespace Mailroom
open Cursor Value

/-! ### Names -/

namespace Flag

/-- The words for a flag: a system flag in any letter case, and any other as it is. -/
inductive Named : Flag → String → Prop
  | system {flag : Flag} {word : String} (h : flag.isKeyword = false)
    (hword : Ascii.upper word = Ascii.upper flag.text) : Named flag word
  | keyword {name : String} (h : ∀ flag : Flag, flag.isKeyword = false →
    Ascii.upper name ≠ Ascii.upper flag.text) : Named (.keyword name) name

theorem read_named {flag : Flag} {word : String} (h : Named flag word) : read word = flag := by
  cases h with
  | system h hword =>
    cases flag with
    | keyword => cases h
    | _ =>
      rw [read, hword]
      rfl
  | @keyword name h =>
    unfold read
    split
    · next heq => exact absurd heq (h .seen rfl)
    · next heq => exact absurd heq (h .answered rfl)
    · next heq => exact absurd heq (h .flagged rfl)
    · next heq => exact absurd heq (h .deleted rfl)
    · next heq => exact absurd heq (h .draft rfl)
    · next heq => exact absurd heq (h .recent rfl)
    · rfl

end Flag

namespace Mailbox.Attribute

/-- The names of an attribute, in capitals. -/
def names : Attribute → List String
  | noSelect => ["\\NOSELECT"]
  | nonExistent => ["\\NONEXISTENT"]
  | hasChildren => ["\\HASCHILDREN"]
  | hasNoChildren => ["\\HASNOCHILDREN"]
  | junk => ["\\JUNK", "\\SPAM"]
  | trash => ["\\TRASH"]
  | sent => ["\\SENT"]
  | drafts => ["\\DRAFTS"]
  | archive => ["\\ARCHIVE"]
  | other _ => []

/-- The words for an attribute: one of its names in any letter case, and any other word as it is. -/
inductive Named : Attribute → String → Prop
  | known {a : Attribute} {word : String} (h : Ascii.upper word ∈ a.names) : Named a word
  | other {name : String} (h : ∀ a : Attribute, Ascii.upper name ∉ a.names) : Named (.other name) name

theorem read_named {a : Attribute} {word : String} (h : Named a word) : read word = a := by
  cases h with
  | known h =>
    cases a with
    | junk =>
      simp only [names, List.mem_cons, List.not_mem_nil, or_false] at h
      rcases h with h | h <;> (rw [read, h]; rfl)
    | other => cases h
    | _ =>
      rw [read, List.mem_singleton.mp h]
      rfl
  | @other name h =>
    unfold read
    split
    · next heq => exact absurd (by simp [names, heq]) (h .noSelect)
    · next heq => exact absurd (by simp [names, heq]) (h .nonExistent)
    · next heq => exact absurd (by simp [names, heq]) (h .hasChildren)
    · next heq => exact absurd (by simp [names, heq]) (h .hasNoChildren)
    · next heq => exact absurd (by simp [names, heq]) (h .junk)
    · next heq => exact absurd (by simp [names, heq]) (h .junk)
    · next heq => exact absurd (by simp [names, heq]) (h .trash)
    · next heq => exact absurd (by simp [names, heq]) (h .sent)
    · next heq => exact absurd (by simp [names, heq]) (h .drafts)
    · next heq => exact absurd (by simp [names, heq]) (h .archive)
    · rfl

end Mailbox.Attribute

namespace Capability

/-- Whether the client acts on the capability. -/
def isKnown : Capability → Bool
  | auth _ => false
  | other _ => false
  | _ => true

/-- The words for a capability: in any letter case, unless it is one that the client knows nothing of. -/
inductive Named : Capability → String → Prop
  | known {c : Capability} {word : String} (h : c.isKnown = true)
    (hword : Ascii.upper word = Ascii.upper c.text) : Named c word
  | auth {mechanism word : String} (h : Ascii.upper mechanism = mechanism)
    (hword : Ascii.upper word = "AUTH=" ++ mechanism) : Named (.auth mechanism) word
  | other {name : String} (h : ∀ c : Capability, c.isKnown = true → Ascii.upper name ≠ Ascii.upper c.text)
    (hauth : Ascii.startsWith "AUTH=" (Ascii.upper name) = false) : Named (.other name) name

theorem read_named {c : Capability} {word : String} (h : Named c word) : read word = c := by
  cases h with
  | known h hword =>
    cases c with
    | auth => cases h
    | other => cases h
    | _ =>
      rw [read, hword]
      rfl
  | @auth mechanism word h hword =>
    have hstart := Ascii.startsWith_append "AUTH=" mechanism
    rw [read, hword]
    split
    case h_8 => rw [Ascii.after?_append]
    -- None of the names that the client acts on begins like this one.
    all_goals next heq => exact absurd (heq ▸ hstart) (by decide)
  | @other name h hauth =>
    unfold read
    split
    · next heq => exact absurd heq (h .imap4rev1 rfl)
    · next heq => exact absurd heq (h .imap4rev2 rfl)
    · next heq => exact absurd heq (h .uidPlus rfl)
    · next heq => exact absurd heq (h .move rfl)
    · next heq => exact absurd heq (h .literalPlus rfl)
    · next heq => exact absurd heq (h .startTls rfl)
    · next heq => exact absurd heq (h .loginDisabled rfl)
    · rw [Ascii.after?, hauth]
      rfl

/-- Whether the name of a capability is a word among values, and no number or the word for nothing. -/
def isWord (c : Capability) : Bool :=
  !Ascii.same c.text "NIL" && decide (∀ n ∈ Decimal.digits? c.text.toList, UInt64.size ≤ n)

theorem Named.upper_eq {c : Capability} {word : String} (h : Named c word) :
    Ascii.upper word = Ascii.upper c.text := by
  cases h with
  | known _ hword => exact hword
  | auth h hword =>
    have hstart : Ascii.upper "AUTH=" = "AUTH=" := by decide +kernel
    rw [hword, text, Ascii.upper_append, h, hstart]
  | other => rfl

theorem isWord_iff {c : Capability} {word : String} (h : Named c word) (hne : word.toList ≠ [])
    (hbare : ∀ b ∈ Utf8.encode word, isAtomByte b = true) : c.isWord = true ↔ IsWord word := by
  have hsame : Ascii.same c.text "NIL" = Ascii.same word "NIL" := by rw [Ascii.same, ← h.upper_eq, Ascii.same]
  have hdigits : Decimal.digits? c.text.toList = Decimal.digits? word.toList := by
    rw [← Ascii.digits?_upper, ← h.upper_eq, Ascii.digits?_upper]
  rw [isWord, hsame, hdigits, Bool.and_eq_true, Bool.not_eq_true', decide_eq_true_eq]
  exact ⟨fun hword => ⟨hne, hbare, hword.1, hword.2⟩, fun hword => ⟨hword.present, hword.unnumbered⟩⟩

end Capability

/-! ### Codes -/

namespace Code

/-- The names of the codes that the client acts on. -/
def keywords : List String := ["CAPABILITY", "UIDVALIDITY", "UIDNEXT", "READ-ONLY", "READ-WRITE", "TRYCREATE"]

/-- The name of a code that says nothing else. -/
def alone? : Code → Option String
  | readOnly => some "READ-ONLY"
  | readWrite => some "READ-WRITE"
  | tryCreate => some "TRYCREATE"
  | _ => none

/-- The name and the number of a code with a number. -/
def numbered? : Code → Option (String × Nat)
  | uidValidity n => some ("UIDVALIDITY", n)
  | uidNext n => some ("UIDNEXT", n)
  | _ => none

/-- The forms of a code, without its brackets. -/
inductive Written : Code → Bytes → Prop
  | capability {word : String} {capabilities : List Capability} {names : List String}
    (hword : Ascii.upper word = "CAPABILITY") (hnames : List.Forall₂ Capability.Named capabilities names)
    (hbare : ∀ name ∈ names, name.toList ≠ [] ∧ ∀ b ∈ Utf8.encode name, isAtomByte b = true) :
    Written (.capability capabilities) (Utf8.encode word ++ Utf8.encode (Blank.spaced names))
  | alone {code : Code} {word : String} (h : code.alone? = some (Ascii.upper word)) :
    Written code (Utf8.encode word)
  | numbered {code : Code} {word : String} {n : Nat} (h : code.numbered? = some (Ascii.upper word, n))
    (hn : n < UInt32.size) : Written code (Utf8.encode word ++ Octet.space :: Octet.ofDigits n)
  | other {name : String} {arguments : List Value} {bytes : Bytes} (hname : IsWord name)
    (hother : Ascii.upper name ∉ keywords) (harguments : ∀ v ∈ arguments, Fits maxDepth v)
    (h : Separated Writes (.atom name :: arguments) bytes) : Written (.other name) bytes

/-- The code without the capabilities that no word names. -/
def heard : Code → Code
  | capability capabilities => .capability (capabilities.filter Capability.isWord)
  | code => code

variable {word : String} {n : Nat} {names : List String} {capabilities : List Capability} {bytes : Bytes}

theorem isAtomByte_behind {b : UInt8} (h : bytes.head? = some Octet.space ∨ bytes = [])
    (hb : bytes.head? = some b) : isAtomByte b = false := by
  rcases h with h | rfl
  · cases h.symm.trans hb
    rfl
  · cases hb

theorem separated_spaced
    (hbare : ∀ name ∈ names, name.toList ≠ [] ∧ ∀ b ∈ Utf8.encode name, isAtomByte b = true) :
    Separated Writes (names.map fun name => ofWord (Utf8.encode name)) (Utf8.encode (Blank.spaced names)) := by
  induction names with
  | nil => exact .nil
  | cons name names ih =>
    obtain ⟨⟨hne, hfirst⟩, hothers⟩ := List.forall_mem_cons.mp hbare
    rw [Blank.encode_spaced_cons]
    refine .space (.cons (ofWord_cases hne hfirst).1 (fun _ b hb => ?_) (ih hothers))
    exact isAtomByte_behind (Blank.head?_spaced names) hb

/-- Of the names of capabilities those are understood that are words. -/
theorem texts_names (h : List.Forall₂ Capability.Named capabilities names)
    (hbare : ∀ name ∈ names, name.toList ≠ [] ∧ ∀ b ∈ Utf8.encode name, isAtomByte b = true) :
    (Response.texts (names.map fun name => ofWord (Utf8.encode name))).map Capability.read =
      capabilities.filter Capability.isWord := by
  induction h with
  | nil => rfl
  | @cons c name capabilities names hname h ih =>
    obtain ⟨⟨hne, hfirst⟩, hothers⟩ := List.forall_mem_cons.mp hbare
    have hiff := Capability.isWord_iff hname hne hfirst
    rw [Response.texts] at ih ⊢
    obtain ⟨hword, heq⟩ | ⟨hword, hnone⟩ := (ofWord_cases hne hfirst).2
    · have htext : (Value.atom name).text? = some name := rfl
      rw [List.map_cons, heq, List.filterMap_cons_some htext, List.map_cons, ih hothers,
        Capability.read_named hname, List.filter_cons_of_pos (hiff.mpr hword)]
    · rw [List.map_cons, List.filterMap_cons_none hnone, ih hothers,
        List.filter_cons_of_neg (fun h => hword (hiff.mp h))]

/-- A keyword, in front of other values or alone. -/
theorem separated_keyword {values : List Value} (hword : IsWord (Ascii.upper word))
    (h : Separated Writes values bytes) (hspace : bytes.head? = some Octet.space ∨ bytes = [])
    (hfits : ∀ v ∈ values, Fits maxDepth v) :
    Separated Writes (.atom word :: values) (Utf8.encode word ++ bytes) ∧
      ∀ v ∈ Value.atom word :: values, Fits maxDepth v := by
  exact ⟨.cons (.atom word) (fun _ _ => isAtomByte_behind hspace) h,
    List.forall_mem_cons.mpr ⟨.atom (isWord_of_upper hword), hfits⟩⟩

theorem separated_number (hn : n < UInt32.size) :
    Separated Writes [.number n] (Octet.space :: Octet.ofDigits n) ∧ ∀ v ∈ [Value.number n], Fits maxDepth v := by
  have hnumber : Separated Writes [.number n] (Octet.ofDigits n ++ []) :=
    .cons (writes_wire (.number n)) nofun .nil
  rw [List.append_nil] at hnumber
  refine ⟨.space hnumber, fun v hv => ?_⟩
  rw [List.mem_singleton.mp hv]
  exact .number (Nat.lt_trans hn (by decide))

theorem separated_alone (hword : IsWord (Ascii.upper word)) :
    Separated Writes [.atom word] (Utf8.encode word) ∧ ∀ v ∈ [Value.atom word], Fits maxDepth v := by
  have halone := separated_keyword hword .nil (.inr rfl) (List.forall_mem_nil _)
  rwa [List.append_nil] at halone

/-- The values in the brackets make up the code. -/
theorem codeOf_written {code : Code} (h : Written code bytes) :
    ∃ values, Separated Writes values bytes ∧ (∀ v ∈ values, Fits maxDepth v) ∧
      Response.codeOf values = code.heard := by
  cases h with
  | @capability word capabilities names hword hnames hbare =>
    have hkeyword : IsWord (Ascii.upper word) := by rw [hword]; decide +kernel
    have hnamed : ∀ v ∈ names.map fun name => ofWord (Utf8.encode name), Fits maxDepth v := by
      intro v hv
      obtain ⟨name, hname, rfl⟩ := List.mem_map.mp hv
      exact ofWord_fits (Utf8.encode_ne_nil (hbare name hname).1) (hbare name hname).2
    obtain ⟨hseparated, hfits⟩ :=
      separated_keyword hkeyword (separated_spaced hbare) (Blank.head?_spaced names) hnamed
    refine ⟨_, hseparated, hfits, ?_⟩
    simp only [Response.codeOf, List.head?_cons, Option.bind_some, Value.text?, hword, List.tail_cons,
      texts_names hnames hbare]
    rfl
  | @alone code word h =>
    generalize hname : Ascii.upper word = name at h
    have hkeyword : IsWord (Ascii.upper word) := by
      rw [hname]
      cases code <;> cases h <;> decide +kernel
    obtain ⟨hseparated, hfits⟩ := separated_alone hkeyword
    refine ⟨_, hseparated, hfits, ?_⟩
    simp only [Response.codeOf, List.head?_cons, Option.bind_some, Value.text?, hname]
    cases code <;> cases h <;> rfl
  | @numbered code word n h hn =>
    generalize hname : Ascii.upper word = name at h
    have hkeyword : IsWord (Ascii.upper word) := by
      rw [hname]
      cases code <;> cases h <;> decide +kernel
    obtain ⟨hnumber, hsmall⟩ := separated_number hn
    obtain ⟨hseparated, hfits⟩ := separated_keyword hkeyword hnumber (.inl rfl) hsmall
    have hcode : Response.codeNumber? [.atom word, .number n] = some n := by
      simpa [Response.codeNumber?, Value.number?] using hn
    refine ⟨_, hseparated, hfits, ?_⟩
    simp only [Response.codeOf, List.head?_cons, Option.bind_some, Value.text?, hname, hcode]
    cases code <;> cases h <;> rfl
  | @other name arguments bytes hname hother harguments h =>
    refine ⟨_, h, List.forall_mem_cons.mpr ⟨.atom hname, harguments⟩, ?_⟩
    simp only [Response.codeOf, List.head?_cons, Option.bind_some, Value.text?]
    split
    case h_7 => rfl
    all_goals next heq => exact absurd (by simp [keywords, heq]) hother

end Code

/-! ### Text, and a code before it -/

/-- The forms of a text with a code before it, or of one without a code. -/
inductive Explanation : Option Code → String → Bytes → Prop
  | plain {text : String} (htext : Unbroken text) (hopen : text.toList.head? ≠ some '[') :
    Explanation none text (Utf8.encode text)
  | coded {code : Code} {text : String} {inside : Bytes} (hcode : code.Written inside)
    (htext : Unbroken text) :
    Explanation (some code) text
      (Octet.openBracket :: (inside ++ Octet.closeBracket :: Octet.space :: Utf8.encode text))

theorem codeAndText_takes {code : Option Code} {text : String} {bytes : Bytes} (h : Explanation code text bytes) :
    Takes (Response.codeAndText literal) (Octet.space :: bytes) Octet.crlf (code.map Code.heard, text) := by
  cases h with
  | plain htext hopen =>
    show Takes _ ([Octet.space] ++ ([] ++ Utf8.encode text)) _ _
    refine (eat_takes _ _).bind ((eat_passes fun hnext => hopen ?_).bind ((restOfLine_takes htext).last rfl))
    rw [List.head?_append] at hnext
    cases hfirst : (Utf8.encode text).head? with
    | none =>
      rw [hfirst] at hnext
      cases hnext
    | some b =>
      rw [hfirst] at hnext
      cases hnext
      exact Octet.char_head hfirst (by decide)
  | @coded code text inside hcode htext =>
    obtain ⟨values, hseparated, hfits, hcodeOf⟩ := Code.codeOf_written hcode
    have hbytes : inside ++ Octet.closeBracket :: Octet.space :: Utf8.encode text =
        (inside ++ [Octet.closeBracket]) ++ ([Octet.space] ++ Utf8.encode text) := by simp
    rw [hbytes]
    show Takes _ ([Octet.space] ++ ([Octet.openBracket] ++ _)) _ _
    refine (eat_takes _ _).bind ((eat_takes _ _).bind ?_)
    refine (values_takes (.inr rfl) hseparated hfits _).bind ((eat_takes _ _).bind ?_)
    refine (restOfLine_takes htext).last ?_
    rw [hcodeOf]
    rfl

/-! ### What is told without being asked -/

/-- The values that stand for a delimiter. -/
inductive Delimits : Option Char → Value → Prop
  | none : Delimits none .absent
  | quoted (c : Char) : Delimits (some c) (.quoted (Utf8.encode (String.singleton c)))
  | literal (c : Char) : Delimits (some c) (.literal (Utf8.encode (String.singleton c)))

/-- What may come after the numbers that a search found. -/
inductive SearchRemark : List String → Prop
  | none : SearchRemark []
  | modSeq {word : String} (hword : Ascii.upper word = "MODSEQ") (n : Nat) :
    SearchRemark ["(" ++ word, Decimal.text n ++ ")"]

/-- The name and the number of what is told about how many messages there are. -/
def Untagged.numbered? : Untagged → Option (String × Nat)
  | count n => some ("EXISTS", n)
  | recent n => some ("RECENT", n)
  | expunge n => some ("EXPUNGE", n)
  | _ => none

/-- The words of a list, as they are written in it. -/
def Listed (words : List String) (inside : Bytes) : Prop :=
  (∀ word ∈ words, IsWord word) ∧ Separated Writes (words.map .atom) inside

/-- The forms of what is told, after the star and a space. -/
inductive Untagged.Written : Untagged → Bytes → Prop
  | condition {condition : Condition} {code : Option Code} {text word : String} {bytes : Bytes}
    (hword : Ascii.upper word = condition.text) (h : Explanation code text bytes) :
    Written (.condition condition code text) (Utf8.encode word ++ Octet.space :: bytes)
  | capability {word : String} {capabilities : List Capability} {names : List String}
    (hword : Ascii.upper word = "CAPABILITY") (hnames : List.Forall₂ Capability.Named capabilities names)
    (hwords : Blank.Apart names) :
    Written (.capability capabilities) (Utf8.encode word ++ Utf8.encode (Blank.spaced names))
  | listing {word name : String} {attributes : List Mailbox.Attribute} {words : List String} {inside : Bytes}
    {delimiter : Option Char} {v : Value} {bytes : Bytes} {piece : Piece} {unasked : Bool}
    (hword : Ascii.upper word = "LIST") (hnames : List.Forall₂ Mailbox.Attribute.Named attributes words)
    (hlisted : Listed words inside) (hdelimiter : Delimits delimiter v) (hbytes : Writes v bytes)
    (hname : Piece.Spells (MailboxName.encode name) piece)
    (hdecode : MailboxName.decode (MailboxName.encode name) = some name) :
    Written (.listing ⟨attributes, delimiter, name⟩) (Utf8.encode word ++ Octet.space :: Octet.openParen ::
      (inside ++ Octet.closeParen :: Octet.space :: (bytes ++ Octet.space :: piece.wire unasked)))
  | search {word : String} {numbers : List Nat} {remark : List String} (hword : Ascii.upper word = "SEARCH")
    (hnumbers : ∀ n ∈ numbers, n < UInt32.size) (hremark : SearchRemark remark) :
    Written (.search numbers)
      (Utf8.encode word ++ Utf8.encode (Blank.spaced (numbers.map Decimal.text ++ remark)))
  | flags {word : String} {flags : List Flag} {words : List String} {inside : Bytes}
    (hword : Ascii.upper word = "FLAGS") (hnames : List.Forall₂ Flag.Named flags words)
    (hlisted : Listed words inside) :
    Written (.flags flags)
      (Utf8.encode word ++ Octet.space :: Octet.openParen :: (inside ++ [Octet.closeParen]))
  | numbered {data : Untagged} {word : String} {n : Nat} (h : data.numbered? = some (Ascii.upper word, n))
    (hn : n < UInt32.size) : Written data (Octet.ofDigits n ++ Octet.space :: Utf8.encode word)

/-- What is told, with the code that is understood. -/
def Untagged.heard : Untagged → Untagged
  | .condition verdict code text => .condition verdict (code.map Code.heard) text
  | data => data

theorem condition_word {condition : Condition} {word : String} (hword : Ascii.upper word = condition.text) :
    Spaceless word ∧ Condition.read? word = some condition := by
  constructor
  · refine .of_upper ?_
    rw [hword]
    cases condition <;> decide +kernel
  · rw [Condition.read?, hword]
    cases condition <;> rfl

theorem untaggedData_condition {condition : Condition} {code : Option Code} {text word : String} {bytes : Bytes}
    (hword : Ascii.upper word = condition.text) (h : Explanation code text bytes) :
    Takes (Response.untaggedData literal) (Utf8.encode word ++ Octet.space :: bytes) Octet.crlf
      (.condition condition (code.map Code.heard) text) := by
  obtain ⟨hname, hcondition⟩ := condition_word hword
  have hnumber : Decimal.unsigned? UInt32.size word = none :=
    Decimal.unsigned?_of_upper (by rw [hword]; cases condition <;> decide +kernel)
  refine (word_takes hname (.inl rfl)).bind ?_
  dsimp only
  rw [hnumber, hcondition]
  exact (codeAndText_takes h).last rfl

/-- What a keyword tells. -/
theorem untaggedData_keyed {name word : String} {data : Untagged} {bytes : Bytes}
    (hname : name ∈ ["CAPABILITY", "LIST", "SEARCH", "FLAGS"]) (hword : Ascii.upper word = name)
    (hspace : bytes.head? = some Octet.space ∨ bytes = [])
    (h : Takes (Response.keyed literal name) bytes Octet.crlf data) :
    Takes (Response.untaggedData literal) (Utf8.encode word ++ bytes) Octet.crlf data := by
  have hall : Spaceless name ∧ Decimal.unsigned? UInt32.size name = none := by
    simp only [List.mem_cons, List.not_mem_nil, or_false] at hname
    rcases hname with rfl | rfl | rfl | rfl <;> decide +kernel
  have hcondition : Condition.read? word = none := by
    simp only [List.mem_cons, List.not_mem_nil, or_false] at hname
    rw [Condition.read?, hword]
    rcases hname with rfl | rfl | rfl | rfl <;> rfl
  have hnumber : Decimal.unsigned? UInt32.size word = none :=
    Decimal.unsigned?_of_upper (by rw [hword]; exact hall.2)
  refine (word_takes (.of_upper (by rw [hword]; exact hall.1)) ?_).bind ?_
  · rcases hspace with hspace | rfl
    · exact .inl (by rw [List.head?_append, hspace]; rfl)
    · exact .inr rfl
  · dsimp only
    rw [hnumber, hcondition, hword]
    exact h

/-- What is made of words, each by itself. -/
theorem map_named {α : Type} {R : α → String → Prop} {f : String → α} {xs : List α} {words : List String}
    (h : List.Forall₂ R xs words) (hf : ∀ x word, R x word → f word = x) : words.map f = xs := by
  induction h with
  | nil => rfl
  | @cons x word xs words hx h ih => exact congrArg₂ List.cons (hf x word hx) ih

theorem texts_atoms (words : List String) : Response.texts (words.map .atom) = words := by
  induction words with
  | nil => rfl
  | cons word words ih => exact congrArg (word :: ·) ih

theorem Listed.fits {words : List String} {inside : Bytes} (h : Listed words inside) :
    ∀ v ∈ words.map Value.atom, Fits maxDepth v := by
  intro v hv
  obtain ⟨word, hword, rfl⟩ := List.mem_map.mp hv
  exact .atom (h.1 word hword)

theorem unbroken_spaced {words : List String} (h : Blank.Apart words) : Unbroken (Blank.spaced words) := by
  have hother : ∀ c, c ≠ ' ' → Blank.isBlank c = true → c ∉ (Blank.spaced words).toList := by
    intro c hspace hblank hmem
    rcases Blank.mem_spaced h hmem with hsame | hnone
    · exact hspace hsame
    · exact absurd hblank (by simp [hnone])
  exact ⟨hother '\r' (by decide) rfl, hother '\n' (by decide) rfl⟩

theorem listing_takes {name : String} {attributes : List Mailbox.Attribute} {words : List String}
    {inside bytes : Bytes} {delimiter : Option Char} {v : Value} {piece : Piece} {unasked : Bool}
    (hnames : List.Forall₂ Mailbox.Attribute.Named attributes words) (hlisted : Listed words inside)
    (hdelimiter : Delimits delimiter v) (hbytes : Writes v bytes)
    (hname : Piece.Spells (MailboxName.encode name) piece)
    (hdecode : MailboxName.decode (MailboxName.encode name) = some name) :
    Takes (Response.listing literal) (Octet.space :: Octet.openParen ::
      (inside ++ Octet.closeParen :: Octet.space :: (bytes ++ Octet.space :: piece.wire unasked))) Octet.crlf
      ⟨attributes, delimiter, name⟩ := by
  obtain ⟨written, htext, hstring⟩ := string_takes hname
  obtain ⟨hfits, hdelimited⟩ : Fits maxDepth v ∧ (v.text?.bind fun s => s.toList.head?) = delimiter := by
    cases hdelimiter with
    | none => exact ⟨.absent, rfl⟩
    | quoted c => exact ⟨.quoted _, by simp [Value.text?, Utf8.lossy_encode]⟩
    | literal c => exact ⟨.literal _, by simp [Value.text?, Utf8.lossy_encode]⟩
  have hline : Octet.space :: Octet.openParen ::
      (inside ++ Octet.closeParen :: Octet.space :: (bytes ++ Octet.space :: piece.wire unasked)) =
      (Octet.space :: Octet.openParen :: (inside ++ [Octet.closeParen])) ++
        ([Octet.space] ++ (bytes ++ ([Octet.space] ++ piece.wire unasked))) := by simp
  rw [hline]
  refine (Response.spacedList_takes hlisted.2 hlisted.fits _).bind ((expect_takes _ _).bind ?_)
  refine ((recovers_value hfits).reads _ _ hbytes fun _ b hb => ?_).bind ((expect_takes _ _).bind ?_)
  · cases hb
    rfl
  · refine hstring.last ?_
    rw [htext]
    dsimp only
    rw [hdecode, texts_atoms, map_named hnames fun _ _ => Mailbox.Attribute.read_named, hdelimited]

theorem mapM_found {numbers : List Nat} (h : ∀ n ∈ numbers, n < UInt32.size) :
    (numbers.map Decimal.text).mapM Response.foundNumber = .ok numbers := by
  induction numbers with
  | nil => rfl
  | cons n numbers ih =>
    obtain ⟨hn, hnumbers⟩ := List.forall_mem_cons.mp h
    have hfirst : Response.foundNumber (Decimal.text n) = .ok n := by
      rw [Response.foundNumber, Decimal.unsigned?_text hn]
      rfl
    rw [List.map_cons, List.mapM_cons, hfirst, ih hnumbers]
    rfl

theorem apart_search {numbers : List Nat} {remark : List String} (h : SearchRemark remark) :
    Blank.Apart (numbers.map Decimal.text ++ remark) := by
  have hnumber : ∀ n, ∀ c ∈ (Decimal.text n).toList, Blank.isBlank c = false := fun n c hc =>
    Blank.isBlank_digit (Decimal.isDigit_text hc)
  intro word hword
  rcases List.mem_append.mp hword with hmem | hmem
  · obtain ⟨n, -, rfl⟩ := List.mem_map.mp hmem
    exact ⟨Decimal.text_ne_nil n, hnumber n⟩
  · cases h with
    | none => cases hmem
    | @modSeq name hname n =>
      have hcapitals : "MODSEQ".toList.all (fun c => !Blank.isBlank c) = true := by decide +kernel
      have hletters : ∀ c ∈ name.toList, Blank.isBlank c = false :=
        Blank.isBlank_of_upper (by rw [hname]; simpa only [List.all_eq_true, Bool.not_eq_true'] using hcapitals)
      simp only [List.mem_cons, List.not_mem_nil, or_false] at hmem
      rcases hmem with rfl | rfl
      · rw [String.toList_append]
        exact ⟨by simp, List.forall_mem_append.mpr ⟨List.forall_mem_singleton.mpr rfl, hletters⟩⟩
      · rw [String.toList_append]
        exact ⟨by simp, List.forall_mem_append.mpr ⟨hnumber n, List.forall_mem_singleton.mpr rfl⟩⟩

/-- The numbers are found again, and what comes after them is passed over. -/
theorem found_search {numbers : List Nat} {remark : List String} (hnumbers : ∀ n ∈ numbers, n < UInt32.size)
    (hremark : SearchRemark remark) :
    Response.found (Blank.spaced (numbers.map Decimal.text ++ remark)) = .ok numbers := by
  have hnumber : ∀ word ∈ numbers.map Decimal.text, (!Ascii.startsWith "(" word) = true := by
    intro word hword
    obtain ⟨n, -, rfl⟩ := List.mem_map.mp hword
    rw [Bool.not_eq_true', Bool.eq_false_iff]
    intro hstart
    have hbegins := List.isPrefixOf_iff_prefix.mp hstart
    have hdigit : '('.isDigit = true := Decimal.isDigit_text (hbegins.subset (by decide))
    exact absurd hdigit (by decide)
  have hrest : remark.takeWhile (fun word => !Ascii.startsWith "(" word) = [] := by
    cases hremark with
    | none => rfl
    | modSeq => simp [Ascii.startsWith_append]
  rw [Response.found, Blank.words_spaced (apart_search hremark), List.takeWhile_append_of_pos hnumber, hrest,
    List.append_nil, mapM_found hnumbers]

theorem numbered_takes {data : Untagged} {word : String} {n : Nat}
    (h : data.numbered? = some (Ascii.upper word, n)) :
    Takes (Response.numbered literal n) (Octet.space :: Utf8.encode word) Octet.crlf data := by
  generalize hname : Ascii.upper word = name at h
  have hword : Spaceless word := by
    refine .of_upper ?_
    rw [hname]
    cases data <;> cases h <;> decide +kernel
  show Takes _ ([Octet.space] ++ _) _ _
  refine (expect_takes _ _).bind ((word_takes hword (.inr rfl)).last ?_)
  dsimp only
  rw [hname]
  cases data <;> cases h <;> rfl

theorem untaggedData_takes {data : Untagged} {bytes : Bytes} (h : data.Written bytes) :
    Takes (Response.untaggedData literal) bytes Octet.crlf data.heard := by
  cases h with
  | condition hword h => exact untaggedData_condition hword h
  | @capability word capabilities names hword hnames hwords =>
    refine untaggedData_keyed (by simp) hword (Blank.head?_spaced names) ?_
    refine (restOfLine_takes (unbroken_spaced hwords)).last ?_
    rw [Blank.words_spaced hwords, map_named hnames fun _ _ => Capability.read_named]
    rfl
  | listing hword hnames hlisted hdelimiter hbytes hname hdecode =>
    refine untaggedData_keyed (by simp) hword (.inl rfl) ?_
    exact (listing_takes hnames hlisted hdelimiter hbytes hname hdecode).last rfl
  | @search word numbers remark hword hnumbers hremark =>
    refine untaggedData_keyed (by simp) hword (Blank.head?_spaced _) ?_
    refine (restOfLine_takes (unbroken_spaced (apart_search hremark))).last ?_
    rw [found_search hnumbers hremark]
    rfl
  | flags hword hnames hlisted =>
    refine untaggedData_keyed (by simp) hword (.inl rfl) ?_
    refine (Response.spacedList_takes hlisted.2 hlisted.fits _).last ?_
    rw [texts_atoms, map_named hnames fun _ _ => Flag.read_named]
    rfl
  | @numbered data word n h hn =>
    refine Response.untaggedData_numbered hn ?_
    have hheard : data.heard = data := by cases data <;> first | rfl | cases h
    rw [hheard]
    exact numbered_takes h

/-! ### Responses -/

namespace Response

/-- A tag of a command: a word that makes the line neither data nor a request. -/
structure IsTag (tag : String) : Prop where
  spaceless : Spaceless tag
  command : tag ≠ "*"
  started : tag.toList.head? ≠ some '+'

/-- The forms of a response, up to the end of its line. -/
inductive Written : Response → Bytes → Prop
  | tagged {tag word text : String} {condition : Condition} {code : Option Code} {bytes : Bytes}
    (htag : IsTag tag) (hword : Ascii.upper word = condition.text) (h : Explanation code text bytes) :
    Written (.tagged tag condition code text)
      (Utf8.encode tag ++ Octet.space :: (Utf8.encode word ++ Octet.space :: bytes))
  | untagged {data : Untagged} {bytes : Bytes} (h : data.Written bytes) :
    Written (.untagged data) (Octet.star :: Octet.space :: bytes)
  | continuation {text : String} (h : Unbroken text) :
    Written (.continuation text) (Octet.plus :: Octet.space :: Utf8.encode text)

/-- The response, with the code that is understood. -/
def heard : Response → Response
  | tagged tag condition code text => .tagged tag condition (code.map Code.heard) text
  | untagged data => .untagged data.heard
  | r => r

/-- The code of a response. -/
def code? : Response → Option Code
  | tagged _ _ code _ => code
  | untagged (.condition _ code _) => code
  | _ => none

theorem response_takes {r : Response} {bytes : Bytes} (h : Written r bytes) :
    Takes (response literal) bytes Octet.crlf r.heard := by
  cases h with
  | @tagged tag word text condition code bytes htag hword h =>
    obtain ⟨hname, hcondition⟩ := condition_word hword
    have hplus : (Utf8.encode tag ++ (Octet.space :: (Utf8.encode word ++ Octet.space :: bytes)) ++
        Octet.crlf).head? ≠ some Octet.plus := by
      intro hnext
      cases hfirst : (Utf8.encode tag).head? with
      | none => exact absurd (List.head?_eq_none_iff.mp hfirst) (Utf8.encode_ne_nil htag.spaceless.nonempty)
      | some b =>
        rw [List.append_assoc, List.head?_append, hfirst] at hnext
        cases hnext
        exact htag.started (Octet.char_head hfirst (by decide))
    show Takes _ ([] ++ (Utf8.encode tag ++ ([Octet.space] ++ (Utf8.encode word ++ _)))) _ _
    refine (eat_passes hplus).bind ((word_takes htag.spaceless (.inl rfl)).bind ((expect_takes _ _).bind ?_))
    rw [if_neg htag.command]
    refine (word_takes hname (.inl rfl)).bind ?_
    rw [hcondition]
    exact (codeAndText_takes h).last rfl
  | untagged h => exact response_star (untaggedData_takes h)
  | @continuation text h =>
    show Takes _ ([Octet.plus] ++ ([Octet.space] ++ _)) _ _
    exact (eat_takes _ _).bind ((eat_takes _ _).bind ((restOfLine_takes h).last rfl))

/-- What is understood of a code is the code, unless it is a list of capabilities one of which no word
names. -/
theorem heard_eq_iff (r : Response) :
    r.heard = r ↔ ∀ capabilities, r.code? = some (.capability capabilities) →
      ∀ c ∈ capabilities, c.isWord = true := by
  have hcode : ∀ code : Option Code, code.map Code.heard = code ↔
      ∀ capabilities, code = some (.capability capabilities) → ∀ c ∈ capabilities, c.isWord = true := by
    intro code
    rcases code with _ | code
    · simp
    · cases code <;> simp [Code.heard]
  cases r with
  | tagged tag condition code text => simpa [heard, code?] using hcode code
  | continuation => simp [heard, code?]
  | untagged data =>
    cases data with
    | condition condition code text => simpa [heard, code?, Untagged.heard] using hcode code
    | _ => simp [heard, code?, Untagged.heard]

/-- Every response is read from each of its forms, except that a code is left without those capabilities
that are named by a number of 64 bits or the word for nothing. So it is read as it was written exactly if
its code has none of these. -/
theorem read_written {r : Response} {bytes : Bytes} (h : Written r bytes) (hend : bytes.length < UInt64.size) :
    read (bytes ++ Octet.crlf) = .ok r.heard ∧
      (read (bytes ++ Octet.crlf) = .ok r ↔ ∀ capabilities, r.code? = some (.capability capabilities) →
        ∀ c ∈ capabilities, c.isWord = true) := by
  have hread := read_of_takes (response_takes h) hend
  refine ⟨hread, ?_⟩
  rw [hread, ← heard_eq_iff, Except.ok.injEq]

/-- A code with a capability whose name is a number. -/
def numberedCapability : Response :=
  .untagged (.condition .ok (some (.capability [.imap4rev1, .other "42"])) "ready")

theorem written_numberedCapability :
    Written numberedCapability (Octet.ofText "* ok [Capability imap4REV1 42] ready") := by
  have hbytes : Octet.ofText "* ok [Capability imap4REV1 42] ready" =
      Octet.star :: Octet.space :: (Utf8.encode "ok" ++ Octet.space :: Octet.openBracket ::
        (Utf8.encode "Capability" ++ Utf8.encode (Blank.spaced ["imap4REV1", "42"]) ++
          Octet.closeBracket :: Octet.space :: Utf8.encode "ready")) := by
    decide +kernel
  have hother : ∀ c : Capability, c.isKnown = true → Ascii.upper "42" ≠ Ascii.upper c.text := by
    intro c hc
    cases c <;> first | decide +kernel | cases hc
  have hnames : List.Forall₂ Capability.Named [.imap4rev1, .other "42"] ["imap4REV1", "42"] :=
    .cons (.known rfl (by decide +kernel)) (.cons (.other hother (by decide +kernel)) .nil)
  rw [hbytes]
  exact .untagged (.condition (by decide +kernel)
    (.coded (.capability (by decide +kernel) hnames (by decide +kernel)) (by decide +kernel)))

/-- The capability is lost. -/
theorem read_written_numberedCapability :
    read (Octet.ofText "* ok [Capability imap4REV1 42] ready" ++ Octet.crlf) =
        .ok (.untagged (.condition .ok (some (.capability [.imap4rev1])) "ready")) ∧
      read (Octet.ofText "* ok [Capability imap4REV1 42] ready" ++ Octet.crlf) ≠ .ok numberedCapability := by
  obtain ⟨hread, hiff⟩ := read_written written_numberedCapability (by decide +kernel)
  have hkept : [Capability.imap4rev1, .other "42"].filter Capability.isWord = [.imap4rev1] := by decide +kernel
  refine ⟨hread.trans ?_, fun hsame => ?_⟩
  · rw [numberedCapability, heard, Untagged.heard, Option.map_some, Code.heard, hkept]
  · exact absurd (hiff.mp hsame _ rfl (.other "42") (by simp)) (by decide +kernel)

end Response

end Mailroom
