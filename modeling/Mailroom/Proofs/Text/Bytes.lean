import Mathlib.Tactic.IntervalCases
import Mailroom.Text.Ascii
import Mailroom.Text.Decimal
import Mailroom.Text.Octet

/-! Texts and the bytes that spell them.

The reader of UTF-8 is followed through the bytes of one character, and from there through those of a
text: `decode_encode` says that it reads back what was written. A text in ASCII has one byte for each
character, and a number is read back from its digits. -/
namespace Mailroom

/-- What holds of all bytes of a line is decided along the line, and not over all bytes that there are. -/
instance (priority := high) {p : UInt8 → Prop} [DecidablePred p] (bytes : Bytes) :
    Decidable (∀ b ∈ bytes, p b) :=
  List.decidableBAll p bytes

namespace Utf8

/-! ### One character -/

section
variable {read : List (Option Char)} {n bits due : Nat} {low high : UInt8}

theorem toNat_byte (h : n < 256) : (UInt8.ofNat n).toNat = n := by
  simpa using h

/-- A byte after the first of a character. -/
theorem feed_inside (hlow : low.toNat ≤ n + 0x80) (hhigh : n + 0x80 ≤ high.toNat) (hn : n < 64) :
    Reader.feed ⟨.inside due low high bits, read⟩ (UInt8.ofNat (n + 0x80)) =
      if due ≤ 1 then ⟨.between, some (Char.ofNat (bits * 64 + n)) :: read⟩
      else ⟨.inside (due - 1) 0x80 0xbf (bits * 64 + n), read⟩ := by
  have hb : (UInt8.ofNat (n + 0x80)).toNat = n + 0x80 := toNat_byte (by omega)
  have hrange : low ≤ UInt8.ofNat (n + 0x80) ∧ UInt8.ofNat (n + 0x80) ≤ high := by
    rw [UInt8.le_iff_toNat_le, UInt8.le_iff_toNat_le, hb]
    exact ⟨hlow, hhigh⟩
  unfold Reader.feed
  simp only [hrange, and_self, if_true, hb, Nat.add_sub_cancel]

theorem first_one (h : n ≤ 0x7f) :
    Reader.first read (UInt8.ofNat n) = ⟨.between, some (Char.ofNat n) :: read⟩ := by
  have hb : (UInt8.ofNat n).toNat = n := toNat_byte (by omega)
  have hlt : UInt8.ofNat n < 0x80 := by
    rw [UInt8.lt_iff_toNat_lt, hb]
    exact Nat.lt_succ_of_le h
  rw [Reader.first, if_pos hlt, hb]

theorem first_two (hlow : 2 ≤ n) (hhigh : n < 32) :
    Reader.first read (UInt8.ofNat (n + 0xc0)) = ⟨.inside 1 0x80 0xbf n, read⟩ := by
  interval_cases n <;> rfl

theorem first_three (h : n < 16) :
    Reader.first read (UInt8.ofNat (n + 0xe0)) =
      ⟨.inside 2 (if n = 0 then 0xa0 else 0x80) (if n = 13 then 0x9f else 0xbf) n, read⟩ := by
  interval_cases n <;> rfl

theorem first_four (h : n < 5) :
    Reader.first read (UInt8.ofNat (n + 0xf0)) =
      ⟨.inside 3 (if n = 0 then 0x90 else 0x80) (if n = 4 then 0x8f else 0xbf) n, read⟩ := by
  interval_cases n <;> rfl

/-- The bytes of a character are read as this character. -/
theorem feed_char (c : Char) :
    (String.utf8EncodeChar c).foldl Reader.feed ⟨.between, read⟩ = ⟨.between, some c :: read⟩ := by
  have hvalid : c.val.toNat < 0xd800 ∨ 0xdfff < c.val.toNat ∧ c.val.toNat < 0x110000 := c.valid
  have hchar : Char.ofNat c.val.toNat = c := Char.ofNat_toNat c
  have hfirst : ∀ b, Reader.feed ⟨.between, read⟩ b = Reader.first read b := fun _ => rfl
  unfold String.utf8EncodeChar
  generalize c.val.toNat = v at hvalid hchar
  dsimp only
  -- One byte, two, three and four.
  split
  · next hv => rw [List.foldl_cons, List.foldl_nil, hfirst, first_one hv, hchar]
  split
  · next hv =>
    rw [List.foldl_cons, hfirst, Nat.mod_eq_of_lt (by omega : v / 64 < 32), first_two (by omega) (by omega),
      List.foldl_cons, List.foldl_nil, feed_inside (by simp) (by simp; omega) (by omega), if_pos (by omega)]
    rw [show v / 64 * 64 + v % 64 = v by omega, hchar]
  split
  · next hv =>
    -- After the first of three bytes overlong forms and surrogates are ruled out.
    have hlow : (if v / 4096 = 0 then 0xa0 else 0x80 : UInt8).toNat ≤ v / 64 % 64 + 0x80 := by
      split
      · simp
        omega
      · simp
    have hhigh : v / 64 % 64 + 0x80 ≤ (if v / 4096 = 13 then 0x9f else 0xbf : UInt8).toNat := by
      split <;> simp <;> omega
    rw [List.foldl_cons, hfirst, Nat.mod_eq_of_lt (by omega : v / 4096 < 16), first_three (by omega),
      List.foldl_cons, feed_inside hlow hhigh (by omega), if_neg (by omega), List.foldl_cons,
      List.foldl_nil, feed_inside (by simp) (by simp; omega) (by omega), if_pos (by omega)]
    rw [show (v / 4096 * 64 + v / 64 % 64) * 64 + v % 64 = v by omega, hchar]
  · have hlow : (if v / 262144 = 0 then 0x90 else 0x80 : UInt8).toNat ≤ v / 4096 % 64 + 0x80 := by
      split
      · simp
        omega
      · simp
    have hhigh : v / 4096 % 64 + 0x80 ≤ (if v / 262144 = 4 then 0x8f else 0xbf : UInt8).toNat := by
      split <;> simp <;> omega
    rw [List.foldl_cons, hfirst, Nat.mod_eq_of_lt (by omega : v / 262144 < 8), first_four (by omega),
      List.foldl_cons, feed_inside hlow hhigh (by omega), if_neg (by omega), List.foldl_cons,
      feed_inside (by simp) (by simp; omega) (by omega), if_neg (by omega), List.foldl_cons,
      List.foldl_nil, feed_inside (by simp) (by simp; omega) (by omega), if_pos (by omega)]
    rw [show ((v / 262144 * 64 + v / 4096 % 64) * 64 + v / 64 % 64) * 64 + v % 64 = v by omega, hchar]

end

/-! ### Texts -/

theorem encode_append (s t : String) : encode (s ++ t) = encode s ++ encode t := by
  rw [encode, String.toList_append, List.flatMap_append]
  rfl

theorem feed_text (cs : List Char) (read : List (Option Char)) :
    (cs.flatMap String.utf8EncodeChar).foldl Reader.feed ⟨.between, read⟩ =
      ⟨.between, (cs.map some).reverse ++ read⟩ := by
  induction cs generalizing read with
  | nil => rfl
  | cons c cs ih =>
    rw [List.flatMap_cons, List.foldl_append, feed_char, ih, List.map_cons, List.reverse_cons,
      List.append_assoc]
    rfl

theorem decode_encode (s : String) : decode (encode s) = s.toList.map some := by
  rw [decode, encode, feed_text, Reader.finish, List.append_nil, List.reverse_reverse]

theorem lossy_encode (s : String) : lossy (encode s) = s := by
  rw [lossy, decode_encode, List.map_map]
  exact (congrArg String.ofList (List.map_id _)).trans String.ofList_toList

/-- What has been read stays read. -/
theorem feed_suffix (r : Reader) (b : UInt8) : r.read <:+ (r.feed b).read := by
  have hfirst : ∀ read, read <:+ (Reader.first read b).read := by
    intro read
    unfold Reader.first
    repeat' split
    all_goals first | exact List.suffix_rfl | exact List.suffix_cons _ _
  unfold Reader.feed
  repeat' split
  · exact hfirst _
  · exact List.suffix_cons _ _
  · exact List.suffix_rfl
  · exact (List.suffix_cons none r.read).trans (hfirst _)

theorem foldl_suffix (bytes : Bytes) (r : Reader) : r.read <:+ (bytes.foldl Reader.feed r).read := by
  induction bytes generalizing r with
  | nil => exact List.suffix_rfl
  | cons b bytes ih => exact (feed_suffix r b).trans (ih (r.feed b))

/-- A text at the start is read, whatever follows. -/
theorem isPrefix_lossy (s : String) (bytes : Bytes) : s.toList <+: (lossy (encode s ++ bytes)).toList := by
  have hread : (s.toList.map some).reverse <:+ ((encode s ++ bytes).foldl Reader.feed ⟨.between, []⟩).read := by
    rw [List.foldl_append, encode, feed_text, List.append_nil]
    exact foldl_suffix bytes ⟨.between, _⟩
  have hdecode : s.toList.map some <+: decode (encode s ++ bytes) := by
    unfold decode Reader.finish
    rw [← List.reverse_suffix]
    split
    · rwa [List.reverse_reverse]
    · rw [List.reverse_reverse]
      exact hread.trans (List.suffix_cons _ _)
  have hmap := hdecode.map fun c => c.getD '\uFFFD'
  rw [List.map_map] at hmap
  rw [lossy, String.toList_ofList]
  rwa [show (fun c : Option Char => c.getD '\uFFFD') ∘ some = id from rfl, List.map_id] at hmap

theorem strict?_encode (s : String) : strict? (encode s) = some s := by
  have hall : (s.toList.map some).all Option.isSome = true := by simp
  simp only [strict?, decode_encode, hall, if_true]
  simp

theorem encode_ne_nil {s : String} (h : s.toList ≠ []) : encode s ≠ [] := by
  intro hempty
  obtain ⟨c, rest, hlist⟩ := List.exists_cons_of_ne_nil h
  rw [encode, hlist, List.flatMap_cons, List.append_eq_nil_iff] at hempty
  exact String.utf8EncodeChar_ne_nil hempty.1

/-! ### Texts in ASCII -/

theorem encodeChar_ascii {c : Char} (h : c.toNat < 128) :
    String.utf8EncodeChar c = [UInt8.ofNat c.toNat] := by
  have hc : c.val.toNat ≤ 127 := Nat.le_of_lt_succ h
  unfold String.utf8EncodeChar
  exact if_pos hc

theorem upper_ofNat {n : Nat} (hlow : 128 ≤ n) (hhigh : n < 256) : 0x80 ≤ UInt8.ofNat n := by
  rw [UInt8.le_iff_toNat_le, toNat_byte hhigh]
  exact hlow

/-- Each byte of a character outside ASCII is in the upper half. -/
theorem encodeChar_upper {c : Char} (h : ¬ c.toNat < 128) {b : UInt8} (hb : b ∈ String.utf8EncodeChar c) :
    0x80 ≤ b := by
  have hc : ¬ c.val.toNat ≤ 127 := fun hle => h (Nat.lt_succ_of_le hle)
  unfold String.utf8EncodeChar at hb
  generalize c.val.toNat = v at hb hc
  dsimp only at hb
  rw [if_neg hc] at hb
  split at hb
  · simp only [List.mem_cons, List.not_mem_nil, or_false] at hb
    rcases hb with rfl | rfl <;> exact upper_ofNat (by omega) (by omega)
  split at hb
  · simp only [List.mem_cons, List.not_mem_nil, or_false] at hb
    rcases hb with rfl | rfl | rfl <;> exact upper_ofNat (by omega) (by omega)
  · simp only [List.mem_cons, List.not_mem_nil, or_false] at hb
    rcases hb with rfl | rfl | rfl | rfl <;> exact upper_ofNat (by omega) (by omega)

/-- A text in ASCII has one byte for each character. -/
theorem encode_ascii {cs : List Char} (h : ∀ c ∈ cs, c.toNat < 128) :
    encode (String.ofList cs) = cs.map fun c => UInt8.ofNat c.toNat := by
  rw [encode, String.toList_ofList]
  induction cs with
  | nil => rfl
  | cons c cs ih =>
    rw [List.flatMap_cons, encodeChar_ascii (h c (List.mem_cons_self ..)),
      ih fun d hd => h d (List.mem_cons_of_mem _ hd)]
    rfl

/-- A text is in ASCII if no byte of it is in the upper half. -/
theorem only_iff (s : String) : Ascii.only s = true ↔ ∀ b ∈ encode s, b < 0x80 := by
  unfold Ascii.only
  rw [List.all_eq_true]
  constructor
  · intro hascii b hb
    obtain ⟨c, hc, hbc⟩ := List.mem_flatMap.mp hb
    have hlt : c.toNat < 128 := of_decide_eq_true (hascii c hc)
    rw [encodeChar_ascii hlt, List.mem_singleton] at hbc
    rw [hbc, UInt8.lt_iff_toNat_lt, toNat_byte (by omega)]
    exact hlt
  · intro hbytes c hc
    refine decide_eq_true (Decidable.byContradiction fun hupper => ?_)
    obtain ⟨b, hb⟩ := List.exists_mem_of_ne_nil _ (String.utf8EncodeChar_ne_nil (c := c))
    have hlow := hbytes b (List.mem_flatMap.mpr ⟨c, hc, hb⟩)
    exact absurd hlow (UInt8.not_lt.mpr (encodeChar_upper hupper hb))

end Utf8

namespace Decimal

theorem ascii_of_isDigit {c : Char} (h : c.isDigit = true) : c.toNat < 128 := by
  simp only [Char.isDigit, Bool.and_eq_true, decide_eq_true_eq] at h
  exact Nat.lt_of_le_of_lt (UInt32.le_iff_toNat_le.mp h.2) (by decide)

theorem digits_ascii {n : Nat} {c : Char} (h : c ∈ digits n) : c.toNat < 128 :=
  ascii_of_isDigit (Nat.isDigit_of_mem_toDigits (by decide) (by decide) h)

/-- A number is read back from its digits. -/
theorem digits?_digits (n : Nat) : digits? (digits n) = some n := by
  have hdigits : ((digits n).isEmpty || !(digits n).all Char.isDigit) = false := by
    rw [Bool.or_eq_false_iff, List.isEmpty_eq_false_iff, Bool.not_eq_false', List.all_eq_true]
    exact ⟨Nat.toDigits_ne_nil, fun c => Nat.isDigit_of_mem_toDigits (by decide) (by decide)⟩
  rw [digits?, hdigits]
  exact congrArg some Nat.ofDigitChars_ten_toDigits

theorem ne_nil_of_digits? {cs : List Char} {n : Nat} (h : digits? cs = some n) : cs ≠ [] := by
  intro hempty
  rw [hempty] at h
  cases h

theorem isDigit_of_digits? {cs : List Char} {n : Nat} (h : digits? cs = some n) :
    ∀ c ∈ cs, c.isDigit = true := by
  unfold digits? at h
  split at h
  · cases h
  · next hdigits =>
    rw [Bool.or_eq_true, not_or, Bool.not_eq_true', Bool.not_eq_false, List.all_eq_true] at hdigits
    exact hdigits.2

end Decimal

namespace Octet

/-- The bytes of the digits of a number. -/
def ofDigits (n : Nat) : Bytes := (Decimal.digits n).map fun c => UInt8.ofNat c.toNat

theorem ofText_decimal (n : Nat) : ofText (Decimal.text n) = ofDigits n :=
  Utf8.encode_ascii fun _ => Decimal.digits_ascii

theorem isDigit_of_char {c : Char} (h : c.isDigit = true) : isDigit (UInt8.ofNat c.toNat) = true := by
  simp only [Char.isDigit, Bool.and_eq_true, decide_eq_true_eq, UInt32.le_iff_toNat_le] at h
  have hlow : 0x30 ≤ c.toNat := h.1
  have hhigh : c.toNat ≤ 0x39 := h.2
  have hb : (UInt8.ofNat c.toNat).toNat = c.toNat := Utf8.toNat_byte (by omega)
  simp only [isDigit, Bool.and_eq_true, decide_eq_true_eq, UInt8.le_iff_toNat_le, hb]
  exact ⟨hlow, hhigh⟩

theorem ofDigits_digit {n : Nat} {b : UInt8} (h : b ∈ ofDigits n) : isDigit b = true := by
  obtain ⟨c, hc, rfl⟩ := List.mem_map.mp h
  exact isDigit_of_char (Nat.isDigit_of_mem_toDigits (by decide) (by decide) hc)

theorem ofDigits_ne_nil (n : Nat) : ofDigits n ≠ [] := by
  simp [ofDigits, Decimal.digits, Nat.toDigits_ne_nil]

/-- The character of a byte that spells a character in ASCII. -/
theorem char_ofNat {c : Char} (h : c.toNat < 128) : char (UInt8.ofNat c.toNat) = c := by
  rw [char, Utf8.toNat_byte (by omega)]
  exact Char.ofNat_toNat c

/-- A byte in ASCII comes from its own character only. -/
theorem char_mem {s : String} {b : UInt8} (h : b ∈ Utf8.encode s) (hb : b < 0x80) : char b ∈ s.toList := by
  obtain ⟨c, hc, hbc⟩ := List.mem_flatMap.mp h
  by_cases hascii : c.toNat < 128
  · rw [Utf8.encodeChar_ascii hascii, List.mem_singleton] at hbc
    rwa [hbc, char_ofNat hascii]
  · exact absurd hb (UInt8.not_lt.mpr (Utf8.encodeChar_upper hascii hbc))

/-- A text that begins with a byte in ASCII begins with its character. -/
theorem char_head {s : String} {b : UInt8} (h : (Utf8.encode s).head? = some b) (hb : b < 0x80) :
    s.toList.head? = some (char b) := by
  rw [Utf8.encode] at h
  cases hlist : s.toList with
  | nil =>
    rw [hlist] at h
    cases h
  | cons c cs =>
    rw [hlist, List.flatMap_cons] at h
    by_cases hascii : c.toNat < 128
    · rw [Utf8.encodeChar_ascii hascii] at h
      cases h
      rw [char_ofNat hascii]
      rfl
    · obtain ⟨first, more, hchar⟩ := List.exists_cons_of_ne_nil (String.utf8EncodeChar_ne_nil (c := c))
      rw [hchar] at h
      cases h
      have hupper := Utf8.encodeChar_upper hascii (hchar ▸ List.mem_cons_self ..)
      exact absurd hb (UInt8.not_lt.mpr hupper)

theorem ofDigits_char (n : Nat) : (ofDigits n).map char = Decimal.digits n := by
  rw [ofDigits, List.map_map]
  refine (List.map_congr_left fun c hc => ?_).trans (List.map_id _)
  exact char_ofNat (Decimal.digits_ascii hc)

theorem ofDigits_value (n : Nat) : Nat.ofDigitChars 10 ((ofDigits n).map char) 0 = n := by
  rw [ofDigits_char]
  exact Nat.ofDigitChars_ten_toDigits

/-- A number is read back from its digits. -/
theorem number?_ofDigits {bound n : Nat} (h : n < bound) : number? bound (ofDigits n) = some n := by
  have hdigits : ((ofDigits n).isEmpty || !(ofDigits n).all isDigit) = false := by
    rw [Bool.or_eq_false_iff, List.isEmpty_eq_false_iff, Bool.not_eq_false', List.all_eq_true]
    exact ⟨ofDigits_ne_nil n, fun b => ofDigits_digit⟩
  rw [number?, hdigits, ofDigits_value]
  simpa using h

theorem toNat_char (b : UInt8) : (char b).toNat = b.toNat := by
  have hvalid : b.toNat.isValidChar := .inl (Nat.lt_trans b.toNat_lt (by decide))
  rw [char, Char.ofNat, dif_pos hvalid]
  rfl

theorem isDigit_char (b : UInt8) : (char b).isDigit = isDigit b := by
  have hnumber : (char b).val.toNat = b.toNat := toNat_char b
  simp [Char.isDigit, isDigit, UInt32.le_iff_toNat_le, UInt8.le_iff_toNat_le, hnumber]

/-- The number that bytes spell is the one that their characters spell. -/
theorem number?_eq (bound : Nat) (bytes : Bytes) :
    number? bound bytes = (Decimal.digits? (bytes.map char)).filter (· < bound) := by
  have hdigits : (bytes.map char).all Char.isDigit = bytes.all isDigit := by
    simp [Function.comp_def, isDigit_char]
  unfold number? Decimal.digits?
  rw [hdigits, List.isEmpty_map]
  split <;> rfl

/-- The characters of a text in ASCII are those of its bytes. -/
theorem char_encode {s : String} (h : ∀ b ∈ Utf8.encode s, b < 0x80) : (Utf8.encode s).map char = s.toList := by
  have hascii : ∀ c ∈ s.toList, c.toNat < 128 := by
    simpa [Ascii.only] using (Utf8.only_iff s).mpr h
  have hbytes := Utf8.encode_ascii hascii
  rw [String.ofList_toList] at hbytes
  rw [hbytes, List.map_map]
  exact (List.map_congr_left fun c hc => char_ofNat (hascii c hc)).trans (List.map_id _)

/-- The bytes of a text in digits are digits. -/
theorem encode_digit {s : String} (h : ∀ c ∈ s.toList, c.isDigit = true) {b : UInt8} (hb : b ∈ Utf8.encode s) :
    isDigit b = true := by
  have hascii : Ascii.only s = true :=
    List.all_eq_true.mpr fun c hc => decide_eq_true (Decimal.ascii_of_isDigit (h c hc))
  have hlower := (Utf8.only_iff s).mp hascii b hb
  rw [← isDigit_char]
  exact h _ (char_mem hb hlower)

/-- The number that a text spells is the one that its bytes spell. -/
theorem number?_encode (bound : Nat) (s : String) :
    number? bound (Utf8.encode s) = (Decimal.digits? s.toList).filter (· < bound) := by
  rw [number?_eq]
  by_cases hlower : ∀ b ∈ Utf8.encode s, b < 0x80
  · rw [char_encode hlower]
  · -- With a byte that is no digit neither spells a number.
    have hnone : ∀ cs, (∀ n, Decimal.digits? cs = some n → ∀ b ∈ Utf8.encode s, isDigit b = true) →
        Decimal.digits? cs = none := by
      intro cs hdigits
      refine Option.eq_none_iff_forall_ne_some.mpr fun n hn => hlower fun b hb => ?_
      have hdigit := hdigits n hn b hb
      rw [isDigit, Bool.and_eq_true, decide_eq_true_eq, decide_eq_true_eq] at hdigit
      exact UInt8.lt_of_le_of_lt hdigit.2 (by decide)
    rw [hnone _ fun n hn b => encode_digit (Decimal.isDigit_of_digits? hn), hnone]
    intro n hn b hb
    rw [← isDigit_char]
    exact Decimal.isDigit_of_digits? hn _ (List.mem_map_of_mem hb)

end Octet

end Mailroom
