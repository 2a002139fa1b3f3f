import Mathlib.Tactic.IntervalCases
import Mailroom.Proofs.Imap.Spelling

/-! The words and strings of a command line.

`Token.read?` takes a line apart by the rules of the protocol: single spaces between tokens, words
without specials, strings between quotation marks in seven bits, strings of announced length in eight,
and a line break at the end. It does not know who wrote the line. `read?_line` says that a line that
was put together from tokens comes apart into the same ones. -/
namespace Mailroom

/-- A word or string of a command line. -/
inductive Token
  | word (bytes : Bytes)
  | quoted (bytes : Bytes)
  /-- A string whose length is announced. -/
  | counted (bytes : Bytes)
  deriving DecidableEq

namespace Token

/-- The bytes that the token stands for. -/
def bytes : Token → Bytes
  | word bytes | quoted bytes | counted bytes => bytes

/-! ### Taking a line apart -/

/-- Whether a byte can stand in a word. -/
def isWordByte (b : UInt8) : Bool :=
  0x20 < b && b < 0x7f && !([Octet.openParen, Octet.closeParen, Octet.openBrace, Octet.percent,
    Octet.star, Octet.quote, Octet.backslash, Octet.closeBracket].contains b)

/-- Whether a byte can stand between quotation marks. -/
def isTextByte (b : UInt8) : Bool := 0 < b && b < 0x80 && b != Octet.cr && b != Octet.lf

/-- The bytes up to the closing quotation mark, and what comes behind it. Only quotation marks and
backslashes may be escaped. -/
def quotedRest (taken : Bytes) : Bytes → Option (Bytes × Bytes)
  | [] => none
  | b :: rest =>
    if b = Octet.quote then some (taken.reverse, rest)
    else if b = Octet.backslash then
      match rest with
      | [] => none
      | escaped :: rest =>
        if escaped = Octet.quote ∨ escaped = Octet.backslash then quotedRest (escaped :: taken) rest
        else none
    else if isTextByte b then quotedRest (b :: taken) rest
    else none

/-- What comes behind the sign that a string need not be asked for. -/
def afterPlus : Bytes → Bytes
  | Octet.plus :: rest => rest
  | rest => rest

/-- The bytes that are announced after an opening brace, and what comes behind them. -/
def countedRest (bytes : Bytes) : Option (Bytes × Bytes) :=
  match Decimal.digits? ((bytes.takeWhile Octet.isDigit).map Octet.char),
    afterPlus (bytes.dropWhile Octet.isDigit) with
  | some n, Octet.closeBrace :: Octet.cr :: Octet.lf :: rest =>
    if rest.length < n then none else some (rest.take n, rest.drop n)
  | _, _ => none

/-- The first token, and what comes behind it. -/
def first? (bytes : Bytes) : Option (Token × Bytes) :=
  match bytes with
  | [] => none
  | b :: rest =>
    if b = Octet.quote then (quotedRest [] rest).map (Prod.map quoted id)
    else if b = Octet.openBrace then (countedRest rest).map (Prod.map counted id)
    else
      let taken := bytes.takeWhile isWordByte
      if taken.isEmpty then none else some (word taken, bytes.dropWhile isWordByte)

theorem quotedRest_length {taken bytes : Bytes} {found : Bytes × Bytes}
    (h : quotedRest taken bytes = some found) : found.2.length ≤ bytes.length := by
  fun_induction quotedRest taken bytes with
  | case1 => cases h
  | case2 taken rest =>
    cases h
    exact Nat.le_succ _
  | case3 => cases h
  | case4 taken escaped rest hquote hescaped ih => exact Nat.le_succ_of_le (Nat.le_succ_of_le (ih h))
  | case5 => cases h
  | case6 taken b rest hquote hback hb ih => exact Nat.le_succ_of_le (ih h)
  | case7 => cases h

theorem afterPlus_length (bytes : Bytes) : (afterPlus bytes).length ≤ bytes.length := by
  unfold afterPlus
  split
  · exact Nat.le_succ _
  · exact Nat.le_refl _

theorem countedRest_length {bytes : Bytes} {found : Bytes × Bytes} (h : countedRest bytes = some found) :
    found.2.length ≤ bytes.length := by
  unfold countedRest at h
  split at h
  next n rest _ hrest =>
    have hplus := afterPlus_length (bytes.dropWhile Octet.isDigit)
    have hdrop := (List.dropWhile_suffix (l := bytes) Octet.isDigit).length_le
    rw [hrest] at hplus
    simp only [List.length_cons] at hplus
    split at h
    · cases h
    · cases h
      rw [List.length_drop]
      omega
  next => cases h

theorem first?_length {bytes : Bytes} {found : Token × Bytes} (h : first? bytes = some found) :
    found.2.length ≤ bytes.length := by
  unfold first? at h
  split at h
  next => cases h
  next b rest =>
    split at h
    · obtain ⟨found, hfound, rfl⟩ := Option.map_eq_some_iff.mp h
      exact Nat.le_succ_of_le (quotedRest_length hfound)
    · split at h
      · obtain ⟨found, hfound, rfl⟩ := Option.map_eq_some_iff.mp h
        exact Nat.le_succ_of_le (countedRest_length hfound)
      · dsimp only at h
        split at h
        · cases h
        · cases h
          exact (List.dropWhile_suffix _).length_le

/-- The tokens of a line, which its line break ends. -/
def read? (bytes : Bytes) : Option (List Token) :=
  match _h : first? bytes with
  | some (token, Octet.space :: rest) => (read? rest).map (token :: ·)
  | some (token, [Octet.cr, Octet.lf]) => some [token]
  | _ => none
termination_by bytes.length
decreasing_by
  have hle := first?_length _h
  simp only [List.length_cons] at hle
  omega

/-! ### Putting a line together -/

/-- The token as it is written. -/
def wire (unasked : Bool) : Token → Bytes
  | word bytes => bytes
  | quoted bytes => (Piece.quoted bytes).wire unasked
  | counted bytes => (Piece.counted bytes).wire unasked

/-- Tokens with single spaces between. -/
def join (unasked : Bool) : List Token → Bytes
  | [] => []
  | [token] => token.wire unasked
  | token :: rest => token.wire unasked ++ Octet.space :: join unasked rest

/-- Whether the token can be written so that it is read back. -/
def Proper : Token → Prop
  | word bytes => bytes ≠ [] ∧ ∀ b ∈ bytes, isWordByte b = true
  | quoted bytes => ∀ b ∈ bytes, isTextByte b = true
  | counted _ => True

section
variable {unasked : Bool} {token : Token} {tokens more : List Token} {bytes taken rest : Bytes} {b : UInt8}
  {s t : String}

theorem quotedRest_escape (h : ∀ b ∈ bytes, isTextByte b = true) :
    quotedRest taken (bytes.flatMap Piece.escape ++ Octet.quote :: rest) =
      some (taken.reverse ++ bytes, rest) := by
  induction bytes generalizing taken with
  | nil => rw [List.flatMap_nil, List.nil_append, quotedRest.eq_def, List.append_nil]; exact if_pos rfl
  | cons b bytes ih =>
    have hrest := @ih (b :: taken) fun b hb => h b (List.mem_cons_of_mem _ hb)
    rw [List.reverse_cons, List.append_assoc] at hrest
    rw [List.flatMap_cons, List.append_assoc]
    by_cases hb : b = Octet.quote ∨ b = Octet.backslash
    · have hescape : Piece.escape b = [Octet.backslash, b] := if_pos hb
      rw [hescape, List.cons_append, List.cons_append, List.nil_append, quotedRest.eq_def]
      dsimp only
      rw [if_neg (by decide), if_pos rfl, if_pos hb]
      exact hrest
    · have hescape : Piece.escape b = [b] := if_neg hb
      rw [not_or] at hb
      rw [hescape, List.cons_append, List.nil_append, quotedRest.eq_def]
      dsimp only
      rw [if_neg hb.1, if_neg hb.2, if_pos (h b (List.mem_cons_self ..))]
      exact hrest

theorem countedRest_announced :
    countedRest (Octet.ofDigits bytes.length ++ ((if unasked then [Octet.plus] else []) ++
      Octet.closeBrace :: Octet.cr :: Octet.lf :: (bytes ++ rest))) = some (bytes, rest) := by
  have hstop : ∀ b, ((if unasked then [Octet.plus] else []) ++
      Octet.closeBrace :: Octet.cr :: Octet.lf :: (bytes ++ rest)).head? = some b →
        Octet.isDigit b = false := fun b hb => by
    cases unasked <;> cases hb <;> decide
  have hplus : afterPlus ((if unasked then [Octet.plus] else []) ++
      Octet.closeBrace :: Octet.cr :: Octet.lf :: (bytes ++ rest)) =
        Octet.closeBrace :: Octet.cr :: Octet.lf :: (bytes ++ rest) := by
    cases unasked <;> rfl
  obtain ⟨htaken, hdropped⟩ := Cursor.span_run (fun _ => Octet.ofDigits_digit (n := bytes.length)) hstop
  have hlength : ¬ (bytes ++ rest).length < bytes.length := by
    rw [List.length_append]
    omega
  rw [countedRest, htaken, hdropped, Octet.ofDigits_char, Decimal.digits?_digits, hplus]
  show (if _ then _ else _) = _
  rw [if_neg hlength, List.take_left, List.drop_left]

/-- A token is found at the front of a line, if a space or a line break comes after it. -/
theorem first?_wire (h : token.Proper) (hrest : rest.head? = some Octet.space ∨ rest.head? = some Octet.cr) :
    first? (token.wire unasked ++ rest) = some (token, rest) := by
  cases token with
  | word bytes =>
    obtain ⟨hne, hword⟩ := h
    obtain ⟨htaken, hdropped⟩ : (bytes ++ rest).takeWhile isWordByte = bytes ∧
        (bytes ++ rest).dropWhile isWordByte = rest := by
      refine Cursor.span_run hword fun b hb => ?_
      rw [hb, Option.some.injEq, Option.some.injEq] at hrest
      rcases hrest with rfl | rfl <;> decide
    obtain ⟨first, bytes, rfl⟩ := List.exists_cons_of_ne_nil hne
    have hfirst := hword first (List.mem_cons_self ..)
    have hquote : first ≠ Octet.quote := by
      rintro rfl
      exact absurd hfirst (by decide)
    have hbrace : first ≠ Octet.openBrace := by
      rintro rfl
      exact absurd hfirst (by decide)
    show first? (first :: (bytes ++ rest)) = _
    rw [first?]
    dsimp only
    rw [if_neg hquote, if_neg hbrace, ← List.cons_append, htaken, hdropped]
    rfl
  | quoted bytes =>
    have hwire : (quoted bytes).wire unasked ++ rest =
        Octet.quote :: (bytes.flatMap Piece.escape ++ Octet.quote :: rest) := by
      simp [wire, Piece.quoted, Piece.wire]
    rw [hwire, first?]
    dsimp only
    rw [if_pos rfl, quotedRest_escape h]
    rfl
  | counted bytes =>
    have hwire : (counted bytes).wire unasked ++ rest = Octet.openBrace :: (Octet.ofDigits bytes.length ++
        ((if unasked then [Octet.plus] else []) ++ Octet.closeBrace :: Octet.cr :: Octet.lf ::
          (bytes ++ rest))) := by
      simp [wire, Piece.wire, Frame.announcement_eq, Frame.mark]
    rw [hwire, first?]
    dsimp only
    rw [if_neg (by decide), if_pos rfl, countedRest_announced]
    rfl

theorem read?_space (h : first? bytes = some (token, Octet.space :: rest)) :
    read? bytes = (read? rest).map (token :: ·) := by
  rw [read?]
  split
  next heq =>
    cases h.symm.trans heq
    rfl
  next heq => cases h.symm.trans heq
  next hother _ => exact absurd h (hother _ _)

theorem read?_crlf (h : first? bytes = some (token, Octet.crlf)) : read? bytes = some [token] := by
  rw [read?]
  split
  next heq => cases h.symm.trans heq
  next heq =>
    cases h.symm.trans heq
    rfl
  next hother => exact absurd h (hother _)

theorem join_cons (h : more ≠ []) :
    join unasked (token :: more) = token.wire unasked ++ Octet.space :: join unasked more := by
  cases more with
  | nil => exact absurd rfl h
  | cons second rest => rfl

theorem join_append (htokens : tokens ≠ []) (hmore : more ≠ []) :
    join unasked (tokens ++ more) = join unasked tokens ++ Octet.space :: join unasked more := by
  induction tokens with
  | nil => exact absurd rfl htokens
  | cons token rest ih =>
    by_cases hrest : rest = []
    · rw [hrest]
      exact join_cons hmore
    · rw [List.cons_append, join_cons (List.append_ne_nil_of_left_ne_nil hrest more), ih hrest,
        join_cons hrest, List.append_assoc, List.cons_append]

/-- A line put together from tokens is taken apart into the same. -/
theorem read?_join (h : ∀ token ∈ tokens, token.Proper) (hne : tokens ≠ []) :
    read? (join unasked tokens ++ Octet.crlf) = some tokens := by
  induction tokens with
  | nil => exact absurd rfl hne
  | cons token rest ih =>
    have htoken := h token (List.mem_cons_self ..)
    by_cases hrest : rest = []
    · rw [hrest]
      exact read?_crlf (first?_wire htoken (.inr rfl))
    · rw [join_cons hrest, List.append_assoc, List.cons_append, read?_space (first?_wire htoken (.inl rfl)),
        ih (fun t ht => h t (List.mem_cons_of_mem _ ht)) hrest]
      rfl

/-! ### Texts that are words -/

/-- A text that a word can be. -/
def Wordy (s : String) : Prop := ∀ c ∈ s.toList, c.toNat < 128 ∧ isWordByte (UInt8.ofNat c.toNat) = true

instance (s : String) : Decidable (Wordy s) := List.decidableBAll _ s.toList

theorem wordy_append : Wordy (s ++ t) ↔ Wordy s ∧ Wordy t := by
  simp only [Wordy, String.toList_append, List.forall_mem_append]

theorem wordy_digits {cs : List Char} (h : ∀ c ∈ cs, c.isDigit = true) : Wordy (String.ofList cs) := by
  intro c hc
  rw [String.toList_ofList] at hc
  have hdigit := h c hc
  simp only [Char.isDigit, Bool.and_eq_true, decide_eq_true_eq, UInt32.le_iff_toNat_le] at hdigit
  have hlow : 48 ≤ c.toNat := hdigit.1
  have hhigh : c.toNat ≤ 57 := hdigit.2
  refine ⟨by omega, ?_⟩
  interval_cases c.toNat <;> decide

/-- A word has no line feed and no opening brace. -/
theorem Wordy.unmarked (h : Wordy s) : Piece.Unmarked s := by
  intro c hc
  obtain ⟨-, hword⟩ := h c hc
  constructor <;> rintro rfl <;> exact absurd hword (by decide)

/-! ### Bytes outside ASCII -/

theorem isWordByte_lower (h : isWordByte b = true) : b < 0x80 := by
  simp only [isWordByte, Bool.and_eq_true, decide_eq_true_eq, UInt8.lt_iff_toNat_lt] at h
  exact UInt8.lt_iff_toNat_lt.mpr (Nat.lt_trans h.1.2 (by decide))

theorem isTextByte_lower (h : isTextByte b = true) : b < 0x80 := by
  simp only [isTextByte, Bool.and_eq_true, decide_eq_true_eq] at h
  exact h.1.1.2

/-- Only counted strings have bytes outside ASCII. -/
theorem Proper.counted_of_upper (h : token.Proper) (hb : b ∈ token.bytes) (hupper : 0x80 ≤ b) :
    token = .counted token.bytes := by
  cases token with
  | word bytes => exact absurd (isWordByte_lower (h.2 b hb)) (UInt8.not_lt.mpr hupper)
  | quoted bytes => exact absurd (isTextByte_lower (h b hb)) (UInt8.not_lt.mpr hupper)
  | counted bytes => rfl

/-- A byte outside ASCII is written as it is, and nothing else brings one. -/
theorem mem_wire_upper (hupper : 0x80 ≤ b) : b ∈ token.wire unasked ↔ b ∈ token.bytes := by
  have hne : ∀ lower : UInt8, lower < 0x80 → b ≠ lower := by
    rintro lower hlower rfl
    exact UInt8.not_lt.mpr hupper hlower
  cases token with
  | word bytes => exact Iff.rfl
  | quoted bytes =>
    have hquote := hne Octet.quote (by decide)
    have hback := hne Octet.backslash (by decide)
    have hescape : ∀ c, b ∈ Piece.escape c ↔ b = c := by
      intro c
      unfold Piece.escape
      split <;> simp [hback]
    simp [wire, Piece.quoted, Piece.wire, Token.bytes, hquote, hescape]
  | counted bytes =>
    have hdigits : b ∉ Octet.ofDigits bytes.length := fun hmem => by
      have hdigit := Octet.ofDigits_digit hmem
      simp only [Octet.isDigit, Bool.and_eq_true, decide_eq_true_eq] at hdigit
      exact UInt8.not_lt.mpr hupper (UInt8.lt_of_le_of_lt hdigit.2 (by decide))
    have hmark : b ∉ Request.announcement unasked bytes.length := by
      have hmarks : b ∉ [Octet.openBrace, Octet.plus, Octet.closeBrace, Octet.cr, Octet.lf] := fun hmem => by
        simp only [List.mem_cons, List.not_mem_nil, or_false] at hmem
        rcases hmem with rfl | rfl | rfl | rfl | rfl <;> exact absurd hupper (by decide)
      rw [Frame.announcement_eq, Frame.mark]
      simp only [List.mem_cons, List.not_mem_nil, or_false, not_or] at hmarks
      cases unasked <;> simp [hdigits, hmarks]
    simp [wire, Piece.wire, Token.bytes, hmark]

theorem mem_join_upper (hupper : 0x80 ≤ b) :
    b ∈ join unasked tokens ↔ ∃ token ∈ tokens, b ∈ token.bytes := by
  induction tokens with
  | nil => simp [join]
  | cons token rest ih =>
    by_cases hrest : rest = []
    · rw [hrest, join, mem_wire_upper hupper]
      simp
    · have hspace : b ≠ Octet.space := by
        rintro rfl
        exact absurd hupper (by decide)
      rw [join_cons hrest, List.mem_append, List.mem_cons, mem_wire_upper hupper, ih]
      simp [hspace]

end

end Token

end Mailroom
