import Mathlib.Data.List.Forall2
import Mailroom.Proofs.Imap.Advertised
import Mailroom.Proofs.Imap.Statements

/-! What is understood of the capabilities that a server advertises.

However a text is spelled, the capability that it is read as goes by its name (`Capability.isNamed_read`), so
that what is asked of a list of capabilities is answered by the texts it was read from. A server advertises
texts in a line of data, or in the code of a condition (`Line.Advertises`). In a code those are lost that are
a number or the word for nothing, which is all that can make a difference (`lists_understood`). -/
namespace Mailroom
open Cursor

/-- Whether one of the texts is this name, in any letter case. -/
def Ascii.lists (texts : List String) (name : String) : Bool := texts.any fun text => same text name

namespace Capability
variable {c d : Capability}

/-! ### Texts -/

/-- A text is one of the words for the capability that it is read as. -/
theorem named_read (word : String) : Named (read word) word := by
  by_cases hknown : ∃ c : Capability, c.isKnown = true ∧ Ascii.upper word = Ascii.upper c.text
  · obtain ⟨c, hc, hword⟩ := hknown
    have hnamed : Named c word := .known hc hword
    rwa [read_named hnamed]
  · have hother : ∀ c : Capability, c.isKnown = true → Ascii.upper word ≠ Ascii.upper c.text :=
      fun c hc hword => hknown ⟨c, hc, hword⟩
    cases hauth : Ascii.startsWith "AUTH=" (Ascii.upper word) with
    | false =>
      have hnamed : Named (.other word) word := .other hother hauth
      rwa [read_named hnamed]
    | true =>
      obtain ⟨mechanism, hmechanism⟩ := List.isPrefixOf_iff_prefix.mp hauth
      have hword : Ascii.upper word = "AUTH=" ++ String.ofList mechanism := by
        have hlist : (String.ofList mechanism).toList = mechanism := String.toList_ofList
        rw [← String.toList_inj, String.toList_append, hlist]
        exact hmechanism.symm
      have hupper : Ascii.upper (String.ofList mechanism) = String.ofList mechanism := by
        have htwice := Ascii.upper_upper word
        have hstart : Ascii.upper "AUTH=" = "AUTH=" := by decide +kernel
        rw [hword, Ascii.upper_append, hstart, String.append_right_inj] at htwice
        exact htwice
      have hnamed : Named (.auth (String.ofList mechanism)) word := .auth hupper hword
      rwa [read_named hnamed]

theorem isNamed_read (word name : String) : (read word).isNamed name = Ascii.same word name := by
  rw [isNamed, Ascii.same, ← (named_read word).upper_eq, Ascii.same]

/-- The texts that are read as a capability on which the client acts. -/
theorem read_eq_iff {word : String} (h : c.isKnown = true) : read word = c ↔ Ascii.same word c.text = true := by
  rw [Ascii.same, beq_iff_eq]
  constructor
  · rintro rfl
    exact (named_read word).upper_eq
  · exact fun hword => read_named (.known h hword)

theorem any_map_read (texts : List String) (name : String) :
    ((texts.map read).any fun c => c.isNamed name) = Ascii.lists texts name := by
  rw [List.any_map, Ascii.lists]
  exact congrArg texts.any (funext fun text => isNamed_read text name)

theorem contains_map_read (h : c.isKnown = true) (texts : List String) :
    (texts.map read).contains c = Ascii.lists texts c.text := by
  rw [Ascii.lists, Bool.eq_iff_iff, List.contains_iff_mem, List.mem_map, List.any_eq_true]
  simp only [read_eq_iff h]

/-! ### Texts in a code -/

/-- The texts that are understood of those that a server advertises, in the code of a condition or not. -/
def understood (inCode : Bool) (texts : List String) : List String :=
  texts.filter fun text => !inCode || (read text).isWord

theorem understood_data (texts : List String) : understood false texts = texts :=
  List.filter_eq_self.mpr fun _ _ => rfl

theorem isWord_congr (h : Ascii.upper c.text = Ascii.upper d.text) : c.isWord = d.isWord := by
  have hdigits : Decimal.digits? c.text.toList = Decimal.digits? d.text.toList := by
    rw [← Ascii.digits?_upper, h, Ascii.digits?_upper]
  rw [isWord, isWord, Ascii.same, h, hdigits, Ascii.same]

/-- What is understood goes by a name if something does that is advertised, unless no text of this name is
understood. -/
theorem lists_understood (inCode : Bool) (texts : List String) (name : String) :
    Ascii.lists (understood inCode texts) name =
      (Ascii.lists texts name && (!inCode || (read name).isWord)) := by
  have hword : ∀ text, Ascii.same text name = true → (read text).isWord = (read name).isWord := by
    intro text hsame
    refine isWord_congr ?_
    rw [← (named_read text).upper_eq, ← (named_read name).upper_eq]
    exact beq_iff_eq.mp hsame
  rw [Ascii.lists, Ascii.lists, Bool.eq_iff_iff, understood, Bool.and_eq_true, List.any_eq_true,
    List.any_eq_true]
  constructor
  · rintro ⟨text, hmem, hsame⟩
    obtain ⟨hmem, hkept⟩ := List.mem_filter.mp hmem
    rw [hword text hsame] at hkept
    exact ⟨⟨text, hmem, hsame⟩, hkept⟩
  · rintro ⟨⟨text, hmem, hsame⟩, hkept⟩
    rw [← hword text hsame] at hkept
    exact ⟨text, List.mem_filter.mpr ⟨hmem, hkept⟩, hsame⟩

/-- What is known of a server that advertises the texts, in the code of a condition or not. -/
def known (inCode : Bool) (texts : List String) : List Capability := (understood inCode texts).map read

theorem any_known (inCode : Bool) (texts : List String) (name : String) :
    ((known inCode texts).any fun c => c.isNamed name) =
      (Ascii.lists texts name && (!inCode || (read name).isWord)) := by
  rw [known, any_map_read, lists_understood]

/-- The capabilities on which the client acts are understood everywhere. -/
theorem contains_known (h : c.isKnown = true) (inCode : Bool) (texts : List String) :
    (known inCode texts).contains c = Ascii.lists texts c.text := by
  have hword : (read c.text).isWord = true := by
    cases c <;> first | decide +kernel | cases h
  rw [known, contains_map_read h, lists_understood, hword, Bool.or_true, Bool.and_true]

end Capability

/-! ### Lines that advertise -/

namespace Connection

/-- A code with texts after its word, and what comes after the code. -/
def coded (word : String) (texts : List String) (text : String) : Bytes :=
  Octet.openBracket :: (Utf8.encode word ++ Utf8.encode (Blank.spaced texts) ++
    Octet.closeBracket :: Octet.space :: Utf8.encode text)

/-- A word for the code with capabilities, the texts in it, and the text after it. -/
structure Codes (word : String) (texts : List String) (text : String) : Prop where
  word : Ascii.upper word = "CAPABILITY"
  texts : ∀ name ∈ texts, name.toList ≠ [] ∧ ∀ b ∈ Utf8.encode name, isAtomByte b = true
  text : Unbroken text

/-- The lines with which a server advertises texts: as data, or in the code of a condition that it tells or
that completes the command. -/
inductive Line.Advertises : Line → Bool → List String → Prop
  | data {l : Line} {word : String} {texts : List String} (hword : Ascii.upper word = "CAPABILITY")
    (htexts : Blank.Apart texts)
    (hframe : l.frame = Octet.star :: Octet.space :: (Utf8.encode word ++ Utf8.encode (Blank.spaced texts)) ++
      Octet.crlf) : Advertises l false texts
  | told {l : Line} {condition : Condition} {verdict word text : String} {texts : List String}
    (hverdict : Ascii.upper verdict = condition.text) (hcode : Codes word texts text)
    (hframe : l.frame = Octet.star :: Octet.space :: (Utf8.encode verdict ++ Octet.space ::
      coded word texts text) ++ Octet.crlf) : Advertises l true texts
  | completed {l : Line} {condition : Condition} {verdict word text : String} {texts : List String}
    (htag : Response.IsTag l.tag) (hverdict : Ascii.upper verdict = condition.text)
    (hcode : Codes word texts text)
    (hframe : l.frame = Utf8.encode l.tag ++ Octet.space :: (Utf8.encode verdict ++ Octet.space ::
      coded word texts text) ++ Octet.crlf) : Advertises l true texts

theorem forall₂_named (texts : List String) :
    List.Forall₂ Capability.Named (texts.map Capability.read) texts := by
  rw [List.forall₂_map_left_iff, List.forall₂_same]
  exact fun text _ => Capability.named_read text

theorem Codes.explanation {word text : String} {texts : List String} (h : Codes word texts text) :
    Explanation (some (.capability (texts.map Capability.read))) text (coded word texts text) := by
  exact .coded (.capability h.word (forall₂_named texts) h.texts) h.text

theorem filter_isWord (texts : List String) :
    (texts.map Capability.read).filter Capability.isWord = Capability.known true texts := by
  rw [List.filter_map]
  rfl

/-- What a line that advertises reports. -/
theorem Line.Advertises.reported {l : Line} {inCode : Bool} {texts : List String} (h : l.Advertises inCode texts)
    (hend : l.frame.length < UInt64.size) :
    l.reported? = some (Capability.known inCode texts) := by
  have hread : ∀ {r : Response} {bytes : Bytes}, l.frame = bytes ++ Octet.crlf → r.Written bytes →
      Response.read l.frame = .ok r.heard := by
    intro r bytes hframe hwritten
    rw [hframe, List.length_append] at hend
    rw [hframe]
    exact Response.read_of_takes (Response.response_takes hwritten) (by omega)
  unfold reported?
  cases h with
  | data hword htexts hframe =>
    rw [hread hframe (.untagged (.capability hword (forall₂_named texts) htexts)), Capability.known,
      Capability.understood_data]
    rfl
  | told hverdict hcode hframe =>
    rw [hread hframe (.untagged (.condition hverdict hcode.explanation)), ← filter_isWord]
    rfl
  | completed htag hverdict hcode hframe =>
    rw [hread hframe (.tagged htag hverdict hcode.explanation), ← filter_isWord]
    exact if_pos rfl

/-- What is noticed of the last line that advertises. -/
theorem getLastD_advertised {lines before after : List Line} {l : Line} {inCode : Bool} {texts : List String}
    (h : l.Advertises inCode texts) (hend : l.frame.length < UInt64.size) (hlooked : l.isOverlooked = false)
    (hlines : lines = before ++ l :: after) (hafter : ∀ later ∈ after, later.reported? = none)
    (others : List Capability) :
    (lines.filterMap Line.noticed?).getLastD others = Capability.known inCode texts := by
  rw [hlines, getLastD_of_last fun later hlater => Line.noticed?_of_none (hafter later hlater),
    Line.noticed?_of_some (h.reported hend), hlooked]
  rfl

/-- A greeting is not overlooked. -/
theorem noticed?_greeting {incoming : List Bytes} {ending : FrameError} {greeting : Bytes} {c : Connection}
    (h : greet (greeting :: incoming) ending = .ok c) :
    (Line.mk "" greeting true).noticed? = (Line.mk "" greeting true).reported? := by
  refine if_neg (Bool.eq_false_iff.mp ?_)
  unfold Line.isOverlooked
  unfold greet at h
  dsimp only at h ⊢
  split
  · next hread =>
    rw [hread] at h
    cases h
  · rfl
  · rfl

end Connection

end Mailroom
