import Mailroom.Imap.Response
import Mailroom.Proofs.Imap.Values

/-! The phrases that responses are made of.

A reader `Takes` some bytes if it makes of them what they say, whatever it does elsewhere. `Takes.bind`
joins what two readers take, so that a response is followed phrase by phrase: words, which may be in any
letter case where they are keywords, values in brackets, and the text up to the end of the line. -/
namespace Mailroom

namespace Cursor
open Value
variable {α β : Type} {r : Reader α} {next : α → Reader β} {a : α} {b : β} {front back bytes rest : Bytes}
  {s name : String} {values : List Value}

/-! ### Phrases one after the other -/

theorem Takes.bind (h : Takes r front (back ++ rest) a) (hnext : Takes (next a) back rest b) :
    Takes (r >>= next) (front ++ back) rest b := by
  intro position hend
  rw [List.length_append] at hend
  rw [bind_apply, List.append_assoc, h position (by omega)]
  dsimp only
  rw [hnext _ (by omega), List.length_append, Nat.add_assoc]

theorem takes_pure (a : α) (rest : Bytes) : Takes (pure a) [] rest a := fun _ _ => rfl

/-- The last phrase is followed by what is made of the phrases. -/
theorem Takes.last (h : Takes r bytes rest a) (hnext : next a = pure b) : Takes (r >>= next) bytes rest b := by
  have hdone : Takes (next a) [] rest b := by
    rw [hnext]
    exact takes_pure b rest
  have hboth : Takes (r >>= next) (bytes ++ []) rest b := Takes.bind h hdone
  rwa [List.append_nil] at hboth

theorem expect_takes (byte : UInt8) (rest : Bytes) : Takes (expect byte) [byte] rest () :=
  fun _ _ => expect_next

theorem eat_takes (byte : UInt8) (rest : Bytes) : Takes (eat byte) [byte] rest true :=
  fun _ _ => eat_next

theorem eat_passes {byte : UInt8} (h : rest.head? ≠ some byte) : Takes (eat byte) [] rest false :=
  fun _ _ => eat_other (by simpa [isNext] using h)

/-! ### Words -/

/-- A text that the reader of words reads whole: in the line, and without spaces. -/
structure Spaceless (s : String) : Prop where
  nonempty : s.toList ≠ []
  inLine : ∀ b ∈ Utf8.encode s, Cursor.inLine b = true ∧ b ≠ Octet.space

instance (s : String) : Decidable (Spaceless s) :=
  decidable_of_iff (s.toList ≠ [] ∧ ∀ b ∈ Utf8.encode s, Cursor.inLine b = true ∧ b ≠ Octet.space)
    ⟨fun ⟨hne, hline⟩ => ⟨hne, hline⟩, fun h => ⟨h.nonempty, h.inLine⟩⟩

/-- A keyword is a word in any letter case. -/
theorem Spaceless.of_upper (h : Spaceless (Ascii.upper s)) : Spaceless s where
  nonempty hempty := h.nonempty (by rw [Ascii.upper, hempty]; rfl)
  inLine := Ascii.mem_encode_of_upper (fun _ hlow hhigh => inLine_atomByte (isAtomByte_small hlow hhigh)) h.inLine

theorem word_takes (h : Spaceless s) (hrest : rest.head? = some Octet.space ∨ rest.head? = some Octet.cr) :
    Takes word (Utf8.encode s) rest s := by
  intro position hend
  have hstop : ∀ b, rest.head? = some b → (inLine b && b != Octet.space) = false := by
    intro b hb
    rw [hb, Option.some.injEq, Option.some.injEq] at hrest
    rcases hrest with rfl | rfl <;> rfl
  obtain ⟨htaken, hdropped⟩ := span_run (fun b hb => by simpa using h.inLine b hb) hstop
  rw [word, bind_apply, takeWhile_run]
  dsimp only
  rw [htaken, hdropped, if_neg (by simpa using Utf8.encode_ne_nil h.nonempty), Utf8.strict?_encode]
  rfl

/-! ### Values -/

/-- A keyword among values. -/
theorem isWord_of_upper (h : IsWord (Ascii.upper s)) : IsWord s where
  nonempty hempty := h.nonempty (by rw [Ascii.upper, hempty]; rfl)
  bare := Ascii.mem_encode_of_upper (fun _ => isAtomByte_small) h.bare
  present := by
    have hpresent := h.present
    rwa [Ascii.same, Ascii.upper_upper] at hpresent
  unnumbered := by
    rw [← Ascii.digits?_upper]
    exact h.unnumbered

theorem recovers_value {v : Value} (h : Fits maxDepth v) : Recovers (value literal) v := recovers_of_fits h

theorem values_takes {close : UInt8} (hclose : close = Octet.closeParen ∨ close = Octet.closeBracket)
    (h : Separated Writes values bytes) (hfits : ∀ v ∈ values, Fits maxDepth v) (rest : Bytes) :
    Takes (Cursor.values literal close) (bytes ++ [close]) rest values := by
  intro position hend
  rw [List.length_append] at hend
  rw [List.append_assoc, List.singleton_append, Cursor.values,
    valuesUntil_separated hclose h (fun v hv => recovers_value (hfits v hv)) (by omega)]
  simp [Nat.add_assoc]

/-- A string in any form, up to the end of the line. -/
theorem string_takes {piece : Piece} {unasked : Bool} (h : Piece.Spells s piece) :
    ∃ v, v.text? = some s ∧ Takes (string literal) (piece.wire unasked) Octet.crlf v := by
  cases h with
  | counted => exact ⟨.literal (Utf8.encode s), congrArg some (Utf8.lossy_encode s), fun _ => string_counted⟩
  | quoted h =>
    refine ⟨.quoted (Utf8.encode s), congrArg some (Utf8.lossy_encode s), fun _ _ => ?_⟩
    exact string_quoted fun b hb => Piece.needsCount_line (h b hb)
  | bare hne h =>
    refine ⟨.atom (Utf8.lossy (Utf8.encode s)), congrArg some (Utf8.lossy_encode s), fun _ _ => ?_⟩
    exact string_bare hne h (.inr rfl)

/-! ### The rest of a line -/

/-- A text without line ends. -/
def Unbroken (text : String) : Prop := '\r' ∉ text.toList ∧ '\n' ∉ text.toList

instance (text : String) : Decidable (Unbroken text) :=
  inferInstanceAs (Decidable ('\r' ∉ text.toList ∧ '\n' ∉ text.toList))

theorem Unbroken.inLine (h : Unbroken s) : ∀ b ∈ Utf8.encode s, inLine b = true := by
  intro b hb
  rw [Cursor.inLine, Bool.and_eq_true, bne_iff_ne, bne_iff_ne]
  constructor
  · intro heq
    exact h.1 (Octet.char_mem (heq ▸ hb) (by decide))
  · intro heq
    exact h.2 (Octet.char_mem (heq ▸ hb) (by decide))

theorem restOfLine_takes (h : Unbroken s) : Takes restOfLine (Utf8.encode s) Octet.crlf s := by
  intro position hend
  have hstop : ∀ b, Octet.crlf.head? = some b → inLine b = false := by
    intro b hb
    cases hb
    rfl
  obtain ⟨htaken, hdropped⟩ := span_run h.inLine hstop
  rw [restOfLine, bind_apply, takeWhile_run]
  dsimp only
  rw [htaken, hdropped, Utf8.lossy_encode]
  rfl

end Cursor

namespace Decimal
variable {bound n : Nat} {word : String}

theorem toList_text (n : Nat) : (text n).toList = digits n := String.toList_ofList

theorem isDigit_text {c : Char} (h : c ∈ (text n).toList) : c.isDigit = true := by
  rw [toList_text] at h
  exact Nat.isDigit_of_mem_toDigits (by decide) (by decide) h

theorem text_ne_nil (n : Nat) : (text n).toList ≠ [] := by
  rw [toList_text]
  exact Nat.toDigits_ne_nil

theorem unsigned?_text (h : n < bound) : unsigned? bound (text n) = some n := by
  have hdigits : unsigned? bound (text n) = (digits? (digits n)).filter (· < bound) := by
    rw [unsigned?, toList_text]
    split
    · next rest hplus =>
      have hdigit : '+'.isDigit = true :=
        Nat.isDigit_of_mem_toDigits (by decide) (by decide) (hplus ▸ List.mem_cons_self ..)
      exact absurd hdigit (by decide)
    · rfl
  rw [hdigits, digits?_digits]
  simpa using h

/-- A word in letters spells no number. -/
theorem unsigned?_of_upper (h : unsigned? bound (Ascii.upper word) = none) : unsigned? bound word = none := by
  refine Option.eq_none_iff_forall_ne_some.mpr fun n hn => ?_
  -- What spells a number is the same in capitals.
  have hupper : ∀ c ∈ word.toList, c.toUpper = c := by
    rw [unsigned?, Option.filter_eq_some_iff] at hn
    have hdigits := isDigit_of_digits? hn.1
    intro c hc
    split at hdigits
    · next rest hplus =>
      rw [hplus] at hc
      cases hc with
      | head => rfl
      | tail _ hc => exact Ascii.toUpper_digit (hdigits c hc)
    · exact Ascii.toUpper_digit (hdigits c hc)
  rw [Ascii.upper, List.map_congr_left hupper, List.map_id'', String.ofList_toList, hn] at h
  · cases h
  · exact fun _ => rfl

end Decimal

namespace Response
open Cursor Value
variable {bytes : Bytes} {word name tag : String} {data : Untagged} {r : Response} {n : Nat}

/-- A line that is taken to its end is read. -/
theorem read_of_takes (h : Takes (response literal) bytes Octet.crlf r) (hend : bytes.length < UInt64.size) :
    read (bytes ++ Octet.crlf) = .ok r := by
  rw [read, ofBytes, h 0 (by omega)]
  rfl

theorem response_star (h : Takes (untaggedData literal) bytes Octet.crlf data) :
    Takes (response literal) (Octet.star :: Octet.space :: bytes) Octet.crlf (.untagged data) := by
  have hstar : Spaceless "*" := by decide +kernel
  show Takes _ ([] ++ ([Octet.star] ++ ([Octet.space] ++ bytes))) _ _
  have hplus : (Octet.star :: (Octet.space :: bytes ++ Octet.crlf)).head? ≠ some Octet.plus := by
    rw [List.head?_cons]
    decide
  refine (eat_passes hplus).bind ((word_takes hstar (.inl rfl)).bind ((expect_takes _ _).bind ?_))
  exact h.last rfl

/-- A number comes before what is told about a message or the number of messages. -/
theorem untaggedData_numbered (hn : n < UInt32.size)
    (h : Takes (numbered literal n) (Octet.space :: bytes) Octet.crlf data) :
    Takes (untaggedData literal) (Octet.ofDigits n ++ Octet.space :: bytes) Octet.crlf data := by
  have hname : Spaceless (Decimal.text n) := by
    refine ⟨Decimal.text_ne_nil n, fun b hb => inLine_atomByte (isAtomByte_of (.inl ?_))⟩
    exact Octet.encode_digit (fun _ => Decimal.isDigit_text) hb
  rw [← Octet.ofText_decimal]
  refine (word_takes hname (.inl rfl)).bind ?_
  dsimp only
  rw [Decimal.unsigned?_text hn]
  exact h

theorem spacedList_takes {values : List Value} (h : Separated Writes values bytes)
    (hfits : ∀ v ∈ values, Fits maxDepth v) (rest : Bytes) :
    Takes (spacedList literal) (Octet.space :: Octet.openParen :: (bytes ++ [Octet.closeParen])) rest values := by
  show Takes _ ([Octet.space] ++ ([Octet.openParen] ++ _)) _ _
  exact (expect_takes _ _).bind ((expect_takes _ _).bind (values_takes (.inl rfl) h hfits rest))

end Response

end Mailroom
