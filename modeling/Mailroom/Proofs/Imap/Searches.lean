import Mathlib.Tactic.IntervalCases
import Mailroom.Proofs.Calendar.Moments
import Mailroom.Proofs.Imap.Tokens
import Mailroom.Proofs.Imap.Wire

/-! What a search command means.

`SearchLine.read?` understands the tokens of a search by the grammar of its keys: a keyword, and behind
it a string or a date if it takes one, and `NOT` with the one key that follows. The grammar leaves open
how a year is written; the protocol has four digits for it. `search_means` says which keys are read from
the command that asks for some, and when it names a character set. -/
namespace Mailroom

/-! ### The grammar -/

namespace Date

/-- The number of the month with the given name. -/
def month? (name : String) : Option Nat := (monthNames.findIdx? (· == name)).map (· + 1)

/-- A year in four digits. -/
def fourDigits? (cs : List Char) : Option Int :=
  if cs.length = 4 then (Decimal.digits? cs).map Int.ofNat else none

/-- A year in digits, with a sign or not. -/
def signedYear? : List Char → Option Int
  | '+' :: cs => (Decimal.digits? cs).map Int.ofNat
  | '-' :: cs => (Decimal.digits? cs).map fun n => -Int.ofNat n
  | cs => (Decimal.digits? cs).map Int.ofNat

/-- A date as a search names it: the day, the name of the month and the year. -/
def ofSearch? (year? : List Char → Option Int) (cs : List Char) : Option Date :=
  match cs.dropWhile Char.isDigit with
  | '-' :: a :: b :: c :: '-' :: year => do
    let day ← Decimal.digits? (cs.takeWhile Char.isDigit)
    let month ← month? (String.ofList [a, b, c])
    let year ← year? year
    ofNumbers? year month day
  | _ => none

end Date

namespace Token

/-- The characters of a word. -/
def chars (bytes : Bytes) : List Char := bytes.map Octet.char

/-- A word in capitals. -/
def keyword (bytes : Bytes) : String := Ascii.upper (String.ofList (chars bytes))

/-- The text of a string. -/
def text? : Token → Option String
  | word _ => none
  | quoted bytes | counted bytes => Utf8.strict? bytes

/-- The date that a word names. -/
def date? (year? : List Char → Option Int) : Token → Option Date
  | word bytes => Date.ofSearch? year? (chars bytes)
  | _ => none

end Token

section
variable (year? : List Char → Option Int)

namespace SearchKey

/-- The key of a keyword with an argument. -/
def argued? (word : String) (argument : Token) : Option SearchKey :=
  match word with
  | "FROM" => argument.text?.map .from
  | "TO" => argument.text?.map .to
  | "SUBJECT" => argument.text?.map .subject
  | "SINCE" => (argument.date? year?).map .since
  | "BEFORE" => (argument.date? year?).map .before
  | _ => none

/-- The first key, and the tokens behind it. -/
def first? : List Token → Option (SearchKey × List Token)
  | .word bytes :: rest =>
    match Token.keyword bytes with
    | "ALL" => some (.all, rest)
    | "UNSEEN" => some (.unseen, rest)
    | "UNANSWERED" => some (.unanswered, rest)
    | "NOT" => (first? rest).map (Prod.map .not id)
    | other =>
      match rest with
      | [] => none
      | argument :: rest => (argued? year? other argument).map fun key => (key, rest)
  | _ => none

theorem first?_length {tokens : List Token} {found : SearchKey × List Token}
    (h : first? year? tokens = some found) : found.2.length < tokens.length := by
  fun_induction first? year? tokens generalizing found with
  | case1 bytes rest hword | case2 bytes rest hword | case3 bytes rest hword =>
    cases h
    exact Nat.lt_succ_self _
  | case4 bytes rest hword ih =>
    obtain ⟨found, hfound, rfl⟩ := Option.map_eq_some_iff.mp h
    have hlt := ih hfound
    exact Nat.lt_succ_of_lt hlt
  | case5 => cases h
  | case6 bytes _ _ _ _ argument rest =>
    obtain ⟨key, -, rfl⟩ := Option.map_eq_some_iff.mp h
    exact Nat.lt_succ_of_lt (Nat.lt_succ_self _)
  | case7 => cases h

/-- One key or more. -/
def read? (tokens : List Token) : Option (List SearchKey) :=
  match _h : first? year? tokens with
  | none => none
  | some (key, []) => some [key]
  | some (key, rest) => (read? rest).map (key :: ·)
termination_by tokens.length
decreasing_by exact first?_length year? _h

end SearchKey

/-- A search as it is understood. -/
structure SearchLine where
  tag : String
  charset : Option String
  keys : List SearchKey
  deriving DecidableEq

namespace SearchLine

/-- The character set, if one is named, and the tokens behind it. -/
def charset? : List Token → Option String × List Token
  | .word bytes :: .word name :: rest =>
    if Token.keyword bytes = "CHARSET" then (some (Token.keyword name), rest)
    else (none, .word bytes :: .word name :: rest)
  | tokens => (none, tokens)

/-- The search on a line. -/
def read? : List Token → Option SearchLine
  | .word tag :: .word uid :: .word search :: rest =>
    if Token.keyword uid = "UID" ∧ Token.keyword search = "SEARCH" then
      (SearchKey.read? year? (charset? rest).2).map fun keys =>
        ⟨String.ofList (Token.chars tag), (charset? rest).1, keys⟩
    else none
  | _ => none

end SearchLine

end

/-! ### Words and texts as tokens -/

namespace Token
variable {s : String} {unasked : Bool}

/-- The word of a text. -/
def ofWord (s : String) : Token := .word (Utf8.encode s)

/-- The string of a text, counted if it cannot stand between quotation marks. -/
def ofText (s : String) : Token :=
  if (Utf8.encode s).any Piece.needsCount then .counted (Utf8.encode s) else .quoted (Utf8.encode s)

theorem chars_encode (h : Wordy s) : chars (Utf8.encode s) = s.toList := by
  have hbytes := Utf8.encode_ascii fun c hc => (h c hc).1
  rw [String.ofList_toList] at hbytes
  rw [chars, hbytes, List.map_map]
  exact (List.map_congr_left fun c hc => Octet.char_ofNat (h c hc).1).trans (List.map_id _)

theorem proper_ofWord (h : Wordy s) (hne : s.toList ≠ []) : (ofWord s).Proper := by
  have hbytes := Utf8.encode_ascii fun c hc => (h c hc).1
  rw [String.ofList_toList] at hbytes
  refine ⟨?_, fun b hb => ?_⟩
  · rw [hbytes]
    simpa using hne
  · rw [hbytes] at hb
    obtain ⟨c, hc, rfl⟩ := List.mem_map.mp hb
    exact (h c hc).2

theorem keyword_encode (h : Wordy s) (hupper : Ascii.upper s = s) : keyword (Utf8.encode s) = s := by
  rw [keyword, chars_encode h, String.ofList_toList, hupper]

theorem wire_ofText (s : String) : (ofText s).wire unasked = (Piece.string s).wire unasked := by
  unfold ofText Piece.string
  dsimp only
  split <;> rfl

theorem proper_ofText (s : String) : (ofText s).Proper := by
  unfold ofText
  split
  · exact trivial
  · next hcount =>
    rw [List.any_eq_true] at hcount
    intro b hb
    have hplain : Piece.needsCount b = false := Bool.eq_false_iff.mpr fun h => hcount ⟨b, hb, h⟩
    simp only [Piece.needsCount, Bool.or_eq_false_iff, decide_eq_false_iff_not, beq_eq_false_iff_ne] at hplain
    obtain ⟨⟨⟨hupper, hcr⟩, hlf⟩, hzero⟩ := hplain
    have hpos : 0 < b := UInt8.pos_iff_ne_zero.mpr hzero
    simp [isTextByte, hpos, UInt8.not_le.mp hupper, hcr, hlf]

theorem text?_ofText (s : String) : (ofText s).text? = some s := by
  unfold ofText
  split <;> exact Utf8.strict?_encode s

theorem bytes_ofText (s : String) : (ofText s).bytes = Utf8.encode s := by
  unfold ofText
  split <;> rfl

end Token

/-! ### Years and dates -/

namespace Date

/-- Whether the year has four digits. -/
def isPlain (d : Date) : Bool := 0 ≤ d.year && d.year ≤ 9999

theorem signedYear?_yearText (year : Int) : signedYear? (yearText year).toList = some year := by
  obtain ⟨hneg, htext⟩ | ⟨hlong, htext⟩ | ⟨hlow, -, htext⟩ := yearText_cases year
  · rw [htext, signedYear?, Decimal.digits?_padded]
    exact congrArg some (by simp only [Int.ofNat_eq_natCast]; omega)
  · rw [htext, signedYear?, Decimal.digits?_padded]
    exact congrArg some (by simp only [Int.ofNat_eq_natCast]; omega)
  · have hsign : ∀ c cs, Decimal.padded 4 year.natAbs = c :: cs → c.isDigit = true := fun c cs heq =>
      Decimal.isDigit_padded (heq ▸ List.mem_cons_self ..)
    rw [htext]
    unfold signedYear?
    split
    next cs heq => exact absurd (hsign _ _ heq) (by decide)
    next cs heq => exact absurd (hsign _ _ heq) (by decide)
    next =>
      rw [Decimal.digits?_padded]
      exact congrArg some (by simp only [Int.ofNat_eq_natCast]; omega)

theorem fourDigits?_yearText (year : Int) :
    fourDigits? (yearText year).toList = if 0 ≤ year ∧ year ≤ 9999 then some year else none := by
  have hlength := Decimal.le_length_padded 4 year.natAbs
  obtain ⟨hneg, htext⟩ | ⟨hlong, htext⟩ | ⟨hlow, hhigh, htext⟩ := yearText_cases year
  · rw [htext, fourDigits?, List.length_cons, if_neg (by omega), if_neg (by omega)]
  · rw [htext, fourDigits?, List.length_cons, if_neg (by omega), if_neg (by omega)]
  · rw [htext, fourDigits?, if_pos (Decimal.length_padded (by omega) (by decide)), if_pos ⟨hlow, hhigh⟩,
      Decimal.digits?_padded]
    exact congrArg some (by simp only [Int.ofNat_eq_natCast]; omega)

theorem month?_monthName (d : Date) :
    ∃ a b c, d.monthName.toList = [a, b, c] ∧ month? (String.ofList [a, b, c]) = some d.month := by
  obtain ⟨-, -, hlow, hhigh, -, -⟩ := d.bounds
  rw [monthName]
  generalize d.month = month at hlow hhigh
  interval_cases month <;> exact ⟨_, _, _, rfl, by decide +kernel⟩

/-- A date is read back if its year is. -/
theorem ofSearch?_searchText {year? : List Char → Option Int} (d : Date) :
    ofSearch? year? d.searchText.toList =
      (year? (yearText d.year).toList).bind fun year => ofNumbers? year d.month d.day := by
  obtain ⟨a, b, c, hname, hmonth⟩ := d.month?_monthName
  have htext : d.searchText.toList =
      Decimal.digits d.day ++ '-' :: a :: b :: c :: '-' :: (yearText d.year).toList := by
    simp [searchText, Decimal.text, hname]
  have hdigits : ∀ c ∈ Decimal.digits d.day, c.isDigit = true := fun c => Decimal.isDigit_digits
  have hdash : ¬ Char.isDigit '-' = true := by decide
  rw [htext, ofSearch?, List.dropWhile_append_of_pos hdigits, List.takeWhile_append_of_pos hdigits,
    List.dropWhile_cons_of_neg hdash, List.takeWhile_cons_of_neg hdash, List.append_nil]
  show (Decimal.digits? _ >>= _) = _
  rw [Decimal.digits?_digits]
  show (month? _ >>= _) = _
  rw [hmonth]
  rfl

theorem ofSearch?_signed (d : Date) : ofSearch? signedYear? d.searchText.toList = some d := by
  rw [ofSearch?_searchText, signedYear?_yearText]
  exact ofNumbers?_eq_some.mpr ⟨rfl, rfl, rfl⟩

theorem ofSearch?_fourDigits (d : Date) :
    ofSearch? fourDigits? d.searchText.toList = if d.isPlain then some d else none := by
  rw [ofSearch?_searchText, fourDigits?_yearText]
  simp only [isPlain, Bool.and_eq_true, decide_eq_true_eq]
  split
  · exact ofNumbers?_eq_some.mpr ⟨rfl, rfl, rfl⟩
  · rfl

theorem searchText_ne_nil (d : Date) : d.searchText.toList ≠ [] := by
  simp [searchText]

end Date

/-! ### Keys as tokens -/

namespace SearchKey
open Token (ofWord ofText)
variable {unasked : Bool} {year? : List Char → Option Int} {plain : Date → Bool}

/-- The tokens of a key. -/
def tokens : SearchKey → List Token
  | all => [ofWord "ALL"]
  | unseen => [ofWord "UNSEEN"]
  | unanswered => [ofWord "UNANSWERED"]
  | «from» s => [ofWord "FROM", ofText s]
  | «to» s => [ofWord "TO", ofText s]
  | subject s => [ofWord "SUBJECT", ofText s]
  | since date => [ofWord "SINCE", ofWord date.searchText]
  | before date => [ofWord "BEFORE", ofWord date.searchText]
  | not key => ofWord "NOT" :: tokens key

/-- The dates in a key. -/
def dates : SearchKey → List Date
  | since date | before date => [date]
  | not key => dates key
  | _ => []

theorem tokens_ne_nil (key : SearchKey) : key.tokens ≠ [] := by
  cases key <;> exact List.cons_ne_nil _ _

theorem flatMap_tokens_ne_nil {keys : List SearchKey} (h : keys ≠ []) : keys.flatMap tokens ≠ [] := by
  obtain ⟨key, rest, rfl⟩ := List.exists_cons_of_ne_nil h
  rw [List.flatMap_cons]
  exact List.append_ne_nil_of_left_ne_nil key.tokens_ne_nil _

/-- Each key begins with a word of its own. -/
theorem tokens_word (key : SearchKey) :
    ∃ word rest, key.tokens = ofWord word :: rest ∧ Token.keyword (Utf8.encode word) ≠ "CHARSET" := by
  cases key <;> exact ⟨_, _, rfl, by decide⟩

/-! ### The tokens are what is written -/

theorem join_text {word front s : String} (h : Utf8.encode front = Utf8.encode word ++ [Octet.space]) :
    Token.join unasked [ofWord word, ofText s] = Piece.wireAll unasked [.text front, .string s] := by
  have hfront : (Piece.text front).wire unasked = Utf8.encode word ++ [Octet.space] := h
  rw [Piece.wireAll_cons, Piece.wireAll_cons, hfront, ← Token.wire_ofText, List.append_assoc]
  show _ = Utf8.encode word ++ Octet.space :: ((ofText s).wire unasked ++ [])
  rw [List.append_nil]
  rfl

theorem join_date {word front : String} {date : Date}
    (h : Utf8.encode front = Utf8.encode word ++ [Octet.space]) :
    Token.join unasked [ofWord word, ofWord date.searchText] =
      Piece.wireAll unasked [.text front, .text date.searchText] := by
  have hfront : (Piece.text front).wire unasked = Utf8.encode word ++ [Octet.space] := h
  rw [Piece.wireAll_cons, Piece.wireAll_cons, hfront, List.append_assoc]
  show _ = Utf8.encode word ++ Octet.space :: (Utf8.encode date.searchText ++ [])
  rw [List.append_nil]
  rfl

theorem join_tokens (key : SearchKey) :
    Token.join unasked key.tokens = Piece.wireAll unasked (Piece.ofKey key) := by
  induction key with
  | all => rfl
  | unseen => rfl
  | unanswered => rfl
  | «from» s => exact join_text (by decide)
  | «to» s => exact join_text (by decide)
  | subject s => exact join_text (by decide)
  | since date => exact join_date (by decide)
  | before date => exact join_date (by decide)
  | not key ih =>
    have hnot : Utf8.encode "NOT " = Utf8.encode "NOT" ++ [Octet.space] := by decide
    rw [tokens, Token.join_cons key.tokens_ne_nil, ih, Piece.ofKey, Piece.wireAll_cons]
    show _ = Utf8.encode "NOT " ++ _
    rw [hnot, List.append_assoc]
    rfl

theorem join_flatMap_tokens (keys : List SearchKey) :
    Token.join unasked (keys.flatMap tokens) = Piece.wireAll unasked (Piece.ofKeys keys) := by
  fun_induction Piece.ofKeys keys with
  | case1 => rfl
  | case2 key => rw [List.flatMap_singleton, join_tokens]
  | case3 key rest hrest ih =>
    rw [List.flatMap_cons, Token.join_append key.tokens_ne_nil (flatMap_tokens_ne_nil hrest), join_tokens, ih,
      Piece.wireAll_append, Piece.wireAll_cons]
    rfl

theorem proper_tokens (key : SearchKey) : ∀ token ∈ key.tokens, token.Proper := by
  have htext : ∀ word s, (ofWord word).Proper → ∀ token ∈ [ofWord word, ofText s], token.Proper :=
    fun word s hword => List.forall_mem_cons.mpr
      ⟨hword, List.forall_mem_singleton.mpr (Token.proper_ofText s)⟩
  have hdate : ∀ word (date : Date), (ofWord word).Proper →
      ∀ token ∈ [ofWord word, ofWord date.searchText], token.Proper := fun word date hword =>
    have htoken := Token.proper_ofWord date.wordy_searchText date.searchText_ne_nil
    List.forall_mem_cons.mpr ⟨hword, List.forall_mem_singleton.mpr htoken⟩
  induction key with
  | all => exact List.forall_mem_singleton.mpr (Token.proper_ofWord (by decide) (by decide))
  | unseen => exact List.forall_mem_singleton.mpr (Token.proper_ofWord (by decide) (by decide))
  | unanswered => exact List.forall_mem_singleton.mpr (Token.proper_ofWord (by decide) (by decide))
  | «from» s => exact htext "FROM" s (Token.proper_ofWord (by decide) (by decide))
  | «to» s => exact htext "TO" s (Token.proper_ofWord (by decide) (by decide))
  | subject s => exact htext "SUBJECT" s (Token.proper_ofWord (by decide) (by decide))
  | since date => exact hdate "SINCE" date (Token.proper_ofWord (by decide) (by decide))
  | before date => exact hdate "BEFORE" date (Token.proper_ofWord (by decide) (by decide))
  | not key ih =>
    exact List.forall_mem_cons.mpr ⟨Token.proper_ofWord (by decide) (by decide), ih⟩

/-! ### The tokens are read back -/

/-- A keyword that stands alone. -/
theorem first?_alone {key : SearchKey} {rest : List Token} (h : key ∈ [all, unseen, unanswered]) :
    first? year? (key.tokens ++ rest) = some (key, rest) := by
  have hall : Token.keyword (Utf8.encode "ALL") = "ALL" := Token.keyword_encode (by decide) (by decide)
  have hunseen : Token.keyword (Utf8.encode "UNSEEN") = "UNSEEN" :=
    Token.keyword_encode (by decide) (by decide)
  have hunanswered : Token.keyword (Utf8.encode "UNANSWERED") = "UNANSWERED" :=
    Token.keyword_encode (by decide) (by decide)
  simp only [List.mem_cons, List.not_mem_nil, or_false] at h
  rcases h with rfl | rfl | rfl
  · simp [tokens, ofWord, first?, hall]
  · simp [tokens, ofWord, first?, hunseen]
  · simp [tokens, ofWord, first?, hunanswered]

/-- A keyword that takes an argument. -/
theorem first?_argued {word : String} {argument : Token} {rest : List Token} (hwordy : Token.Wordy word)
    (hupper : Ascii.upper word = word) (hother : word ∉ ["ALL", "UNSEEN", "UNANSWERED", "NOT"]) :
    first? year? (ofWord word :: argument :: rest) =
      (argued? year? word argument).map fun key => (key, rest) := by
  simp only [List.mem_cons, List.not_mem_nil, or_false, not_or] at hother
  rw [ofWord, first?, Token.keyword_encode hwordy hupper]
  split
  next => exact absurd rfl hother.1
  next => exact absurd rfl hother.2.1
  next => exact absurd rfl hother.2.2.1
  next => exact absurd rfl hother.2.2.2
  next => rfl

theorem read?_none {tokens : List Token} (h : first? year? tokens = none) : read? year? tokens = none := by
  rw [read?]
  split
  next => rfl
  next heq => cases h.symm.trans heq
  next heq => cases h.symm.trans heq

theorem read?_last {tokens : List Token} {key : SearchKey} (h : first? year? tokens = some (key, [])) :
    read? year? tokens = some [key] := by
  rw [read?]
  split
  next heq => cases h.symm.trans heq
  next heq =>
    cases h.symm.trans heq
    rfl
  next hother heq => exact absurd (congrArg Prod.snd (Option.some.inj (h.symm.trans heq))).symm (hother ·)

theorem read?_more {tokens more : List Token} {key : SearchKey} (h : first? year? tokens = some (key, more))
    (hne : more ≠ []) : read? year? tokens = (read? year? more).map (key :: ·) := by
  rw [read?]
  split
  next heq => cases h.symm.trans heq
  next heq =>
    cases h.symm.trans heq
    exact absurd rfl hne
  next heq =>
    cases h.symm.trans heq
    rfl

section
variable (hdates : ∀ d : Date, Date.ofSearch? year? d.searchText.toList = if plain d then some d else none)
include hdates

theorem date?_ofWord (d : Date) :
    (ofWord d.searchText).date? year? = if plain d then some d else none := by
  rw [ofWord, Token.date?, Token.chars_encode d.wordy_searchText, hdates]

/-- A key is read back if its dates are. -/
theorem first?_tokens (key : SearchKey) (rest : List Token) :
    first? year? (key.tokens ++ rest) =
      if key.dates.all plain then some (key, rest) else none := by
  induction key with
  | all => exact (first?_alone (by decide)).trans (by simp [dates])
  | unseen => exact (first?_alone (by decide)).trans (by simp [dates])
  | unanswered => exact (first?_alone (by decide)).trans (by simp [dates])
  | «from» s =>
    rw [tokens, List.cons_append, List.cons_append, first?_argued (by decide) (by decide) (by decide)]
    simp [argued?, Token.text?_ofText, dates]
  | «to» s =>
    rw [tokens, List.cons_append, List.cons_append, first?_argued (by decide) (by decide) (by decide)]
    simp [argued?, Token.text?_ofText, dates]
  | subject s =>
    rw [tokens, List.cons_append, List.cons_append, first?_argued (by decide) (by decide) (by decide)]
    simp [argued?, Token.text?_ofText, dates]
  | since date =>
    rw [tokens, List.cons_append, List.cons_append, first?_argued (by decide) (by decide) (by decide)]
    by_cases hplain : plain date <;> simp [argued?, date?_ofWord hdates, dates, hplain]
  | before date =>
    rw [tokens, List.cons_append, List.cons_append, first?_argued (by decide) (by decide) (by decide)]
    by_cases hplain : plain date <;> simp [argued?, date?_ofWord hdates, dates, hplain]
  | not key ih =>
    have hword : Token.keyword (Utf8.encode "NOT") = "NOT" := Token.keyword_encode (by decide) (by decide)
    simp only [tokens, ofWord, List.cons_append, first?, hword, ih]
    show _ = if key.dates.all plain then _ else _
    cases key.dates.all plain <;> rfl

theorem read?_tokens {keys : List SearchKey} (hne : keys ≠ []) :
    read? year? (keys.flatMap tokens) = if (keys.flatMap dates).all plain then some keys else none := by
  induction keys with
  | nil => exact absurd rfl hne
  | cons key rest ih =>
    have hfirst := first?_tokens hdates key (rest.flatMap tokens)
    rw [List.flatMap_cons, List.flatMap_cons, List.all_append]
    cases hkey : key.dates.all plain with
    | false =>
      rw [hkey] at hfirst
      exact read?_none hfirst
    | true =>
      rw [hkey] at hfirst
      by_cases hrest : rest = []
      · subst hrest
        exact read?_last hfirst
      · rw [read?_more hfirst (flatMap_tokens_ne_nil hrest), ih hrest]
        cases (rest.flatMap dates).all plain <;> rfl

end

/-! ### Character sets -/

theorem bytes_ofWord {word : String} (h : Token.Wordy word) : ∀ b ∈ (ofWord word).bytes, ¬ 0x80 ≤ b := by
  intro b hb hupper
  have hbytes := Utf8.encode_ascii fun c hc => (h c hc).1
  rw [String.ofList_toList] at hbytes
  rw [ofWord, Token.bytes, hbytes] at hb
  obtain ⟨c, hc, rfl⟩ := List.mem_map.mp hb
  exact UInt8.not_lt.mpr hupper (Token.isWordByte_lower (h c hc).2)

/-- Whether some of the tokens have a byte outside ASCII. -/
def Upper (tokens : List Token) : Prop := ∃ token ∈ tokens, ∃ b ∈ token.bytes, 0x80 ≤ b

theorem upper_word {word : String} {tokens : List Token} (h : Token.Wordy word) :
    Upper (ofWord word :: tokens) ↔ Upper tokens := by
  have hnone : ¬ ∃ b ∈ (ofWord word).bytes, 0x80 ≤ b := fun ⟨b, hb, hupper⟩ => bytes_ofWord h b hb hupper
  simp [Upper, hnone]

theorem upper_text {word s : String} (h : Token.Wordy word) :
    Upper [ofWord word, ofText s] ↔ (!Ascii.only s) = true := by
  rw [upper_word h, Bool.not_eq_true', ← Bool.not_eq_true, Utf8.only_iff]
  simp [Upper, Token.bytes_ofText]

theorem upper_flatMap {keys : List SearchKey} :
    Upper (keys.flatMap tokens) ↔ ∃ key ∈ keys, Upper key.tokens := by
  simp only [Upper, List.mem_flatMap]
  constructor
  · rintro ⟨token, ⟨key, hkey, htoken⟩, hb⟩
    exact ⟨key, hkey, token, htoken, hb⟩
  · rintro ⟨key, hkey, token, htoken, hb⟩
    exact ⟨token, ⟨key, hkey, htoken⟩, hb⟩

/-- A key needs a character set exactly if it has a byte outside ASCII. -/
theorem needsUtf8_iff (key : SearchKey) : key.needsUtf8 = true ↔ Upper key.tokens := by
  have hnil : ¬ Upper [] := by simp [Upper]
  have hfalse : ¬ (false = true) := nofun
  induction key with
  | all => exact iff_of_false hfalse ((upper_word (by decide)).not.mpr hnil)
  | unseen => exact iff_of_false hfalse ((upper_word (by decide)).not.mpr hnil)
  | unanswered => exact iff_of_false hfalse ((upper_word (by decide)).not.mpr hnil)
  | «from» s => exact (upper_text (by decide)).symm
  | «to» s => exact (upper_text (by decide)).symm
  | subject s => exact (upper_text (by decide)).symm
  | since date =>
    exact iff_of_false hfalse
      (((upper_word (by decide)).trans (upper_word date.wordy_searchText)).not.mpr hnil)
  | before date =>
    exact iff_of_false hfalse
      (((upper_word (by decide)).trans (upper_word date.wordy_searchText)).not.mpr hnil)
  | not key ih => exact ih.trans (upper_word (by decide)).symm

end SearchKey

/-! ### Search commands -/

namespace SearchLine
open Token (ofWord)
variable {year? : List Char → Option Int} {plain : Date → Bool} {tag : String} {unasked : Bool}

/-- A command without keys asks for everything. -/
def asked (keys : List SearchKey) : List SearchKey := if keys.isEmpty then [.all] else keys

theorem asked_ne_nil (keys : List SearchKey) : asked keys ≠ [] := by
  unfold asked
  split
  · exact List.cons_ne_nil _ _
  · next h => exact mt List.isEmpty_iff.mpr h

theorem dates_asked (keys : List SearchKey) :
    (asked keys).flatMap SearchKey.dates = keys.flatMap SearchKey.dates := by
  cases keys <;> rfl

/-- The tokens that name the character set, if one is needed. -/
def charsetTokens (keys : List SearchKey) : List Token :=
  if keys.any SearchKey.needsUtf8 then [ofWord "CHARSET", ofWord "UTF-8"] else []

/-- The tokens of a search command. -/
def tokens (tag : String) (keys : List SearchKey) : List Token :=
  ofWord tag :: ofWord "UID" :: ofWord "SEARCH" ::
    (charsetTokens keys ++ (asked keys).flatMap SearchKey.tokens)

theorem join_asked (keys : List SearchKey) :
    Token.join unasked ((asked keys).flatMap SearchKey.tokens) =
      Piece.wireAll unasked (if keys.isEmpty then [.text "ALL"] else Piece.ofKeys keys) := by
  rw [SearchKey.join_flatMap_tokens, asked]
  cases keys <;> rfl

theorem join_charset (keys : List SearchKey) {more : List Token} (hne : more ≠ []) :
    Token.join unasked (charsetTokens keys ++ more) =
      Piece.wireAll unasked (if keys.any SearchKey.needsUtf8 then [.text "CHARSET UTF-8 "] else []) ++
        Token.join unasked more := by
  have hcharset : Utf8.encode "CHARSET UTF-8 " =
      Utf8.encode "CHARSET" ++ Octet.space :: (Utf8.encode "UTF-8" ++ [Octet.space]) := by
    decide
  unfold charsetTokens
  split
  · rw [List.cons_append, List.cons_append, List.nil_append, Token.join_cons (List.cons_ne_nil _ _),
      Token.join_cons hne, Piece.wireAll_cons]
    show _ = (Utf8.encode "CHARSET UTF-8 " ++ []) ++ _
    rw [hcharset]
    simp [ofWord, Token.wire]
  · rfl

/-- A search command is its tokens. -/
theorem wire_search (tag : String) (keys : List SearchKey) (unasked : Bool) :
    (Command.search keys).wire tag unasked = Token.join unasked (tokens tag keys) ++ Octet.crlf := by
  have hasked := SearchKey.flatMap_tokens_ne_nil (asked_ne_nil keys)
  have hname : Utf8.encode "UID SEARCH" = Utf8.encode "UID" ++ Octet.space :: Utf8.encode "SEARCH" := by
    decide
  have hspace : Utf8.encode " " = [Octet.space] := by decide
  have hwords : ∀ more, more ≠ [] →
      Token.join unasked (ofWord tag :: ofWord "UID" :: ofWord "SEARCH" :: more) =
        Utf8.encode (tag ++ " ") ++
          (Utf8.encode "UID SEARCH" ++ (Utf8.encode " " ++ Token.join unasked more)) := by
    intro more hne
    rw [Token.join_cons (List.cons_ne_nil _ _), Token.join_cons (List.cons_ne_nil _ _), Token.join_cons hne,
      Utf8.encode_append, hname, hspace]
    simp [ofWord, Token.wire]
  rw [Command.wire_eq, tokens, hwords _ (List.append_ne_nil_of_right_ne_nil _ hasked),
    join_charset keys hasked, join_asked, ← Piece.wireAll_append]
  rfl

theorem proper_tokens (htag : Token.Wordy tag) (hne : tag.toList ≠ []) (keys : List SearchKey) :
    ∀ token ∈ tokens tag keys, token.Proper := by
  have hcharset : ∀ token ∈ charsetTokens keys, token.Proper := by
    unfold charsetTokens
    split
    · exact List.forall_mem_cons.mpr ⟨Token.proper_ofWord (by decide) (by decide),
        List.forall_mem_singleton.mpr (Token.proper_ofWord (by decide) (by decide))⟩
    · exact List.forall_mem_nil _
  exact List.forall_mem_cons.mpr ⟨Token.proper_ofWord htag hne,
    List.forall_mem_cons.mpr ⟨Token.proper_ofWord (by decide) (by decide),
      List.forall_mem_cons.mpr ⟨Token.proper_ofWord (by decide) (by decide),
        List.forall_mem_append.mpr ⟨hcharset,
          List.forall_mem_flatMap.mpr fun key _ => key.proper_tokens⟩⟩⟩⟩

/-- The character set is found, and no key is taken for one. -/
theorem charset?_tokens (keys : List SearchKey) :
    charset? (charsetTokens keys ++ (asked keys).flatMap SearchKey.tokens) =
      (if keys.any SearchKey.needsUtf8 then some "UTF-8" else none,
        (asked keys).flatMap SearchKey.tokens) := by
  unfold charsetTokens
  split
  · have hcharset : Token.keyword (Utf8.encode "CHARSET") = "CHARSET" :=
      Token.keyword_encode (by decide) (by decide)
    have hname : Token.keyword (Utf8.encode "UTF-8") = "UTF-8" :=
      Token.keyword_encode (by decide) (by decide)
    simp only [ofWord, List.cons_append, List.nil_append, charset?, hcharset, hname, if_true]
  · obtain ⟨key, rest, hkeys⟩ := List.exists_cons_of_ne_nil (asked_ne_nil keys)
    obtain ⟨word, more, htokens, hword⟩ := key.tokens_word
    rw [List.nil_append, hkeys, List.flatMap_cons, htokens, List.cons_append, ofWord]
    generalize more ++ rest.flatMap SearchKey.tokens = others
    unfold charset?
    split
    next heq =>
      cases heq
      rw [if_neg hword]
    next => rfl

/-- A search command is understood if its dates are. -/
theorem read?_tokens
    (hdates : ∀ d : Date, Date.ofSearch? year? d.searchText.toList = if plain d then some d else none)
    (htag : Token.Wordy tag) (keys : List SearchKey) :
    read? year? (tokens tag keys) =
      if (keys.flatMap SearchKey.dates).all plain then
        some ⟨tag, if keys.any SearchKey.needsUtf8 then some "UTF-8" else none, asked keys⟩
      else none := by
  have huid : Token.keyword (Utf8.encode "UID") = "UID" := Token.keyword_encode (by decide) (by decide)
  have hsearch : Token.keyword (Utf8.encode "SEARCH") = "SEARCH" :=
    Token.keyword_encode (by decide) (by decide)
  rw [tokens, ofWord, ofWord, ofWord, read?, if_pos ⟨huid, hsearch⟩, charset?_tokens,
    SearchKey.read?_tokens hdates (asked_ne_nil keys), dates_asked, Token.chars_encode htag,
    String.ofList_toList]
  cases (keys.flatMap SearchKey.dates).all plain <;> rfl

/-- A character set is needed exactly if there is a byte outside ASCII. -/
theorem any_needsUtf8 (htag : Token.Wordy tag) (keys : List SearchKey) :
    keys.any SearchKey.needsUtf8 = true ↔ ∃ b ∈ (Command.search keys).wire tag unasked, 0x80 ≤ b := by
  have hkeys : keys.any SearchKey.needsUtf8 = true ↔
      SearchKey.Upper ((asked keys).flatMap SearchKey.tokens) := by
    have hasked : keys.any SearchKey.needsUtf8 = (asked keys).any SearchKey.needsUtf8 := by
      cases keys <;> rfl
    rw [hasked, List.any_eq_true, SearchKey.upper_flatMap]
    simp only [SearchKey.needsUtf8_iff]
  have hline : SearchKey.Upper (tokens tag keys) ↔
      SearchKey.Upper ((asked keys).flatMap SearchKey.tokens) := by
    rw [tokens, SearchKey.upper_word htag, SearchKey.upper_word (by decide), SearchKey.upper_word (by decide)]
    unfold charsetTokens
    split
    · exact (SearchKey.upper_word (by decide)).trans (SearchKey.upper_word (by decide))
    · exact Iff.rfl
  have hbytes : ∀ b, 0x80 ≤ b → (b ∈ (Command.search keys).wire tag unasked ↔
      ∃ token ∈ tokens tag keys, b ∈ token.bytes) := by
    intro b hupper
    have hcrlf : b ∉ Octet.crlf := fun hmem => by
      simp only [List.mem_cons, List.not_mem_nil, or_false] at hmem
      rcases hmem with rfl | rfl <;> exact absurd hupper (by decide)
    rw [wire_search, List.mem_append, Token.mem_join_upper hupper]
    simp [hcrlf]
  rw [hkeys, ← hline]
  constructor
  · rintro ⟨token, htoken, b, hb, hupper⟩
    exact ⟨b, (hbytes b hupper).mpr ⟨token, htoken, hb⟩, hupper⟩
  · rintro ⟨b, hb, hupper⟩
    obtain ⟨token, htoken, hb⟩ := (hbytes b hupper).mp hb
    exact ⟨token, htoken, b, hb, hupper⟩

end SearchLine

/-- A search command is understood as the keys that were asked for, or as the one that asks for
everything if there were none, whatever the nesting and the texts. With years in four digits that holds
as long as they have four digits, and with a sign where those do not do it holds for all. The character
set is named exactly if some byte is outside ASCII, and all such bytes are in counted strings. -/
theorem search_means (keys : List SearchKey) (n : UInt32) (unasked : Bool) :
    let tag := ({ next := n } : TagSource).current
    let wire := (Command.search keys).wire tag unasked
    let charset := if ∃ b ∈ wire, 0x80 ≤ b then some "UTF-8" else none
    let keys' := if keys.isEmpty then [.all] else keys
    ∃ tokens, Token.read? wire = some tokens ∧ wire = Token.join unasked tokens ++ Octet.crlf ∧
      (∀ token ∈ tokens, (∃ b ∈ token.bytes, 0x80 ≤ b) → token = .counted token.bytes) ∧
      SearchLine.read? Date.fourDigits? tokens =
        (if (keys.flatMap SearchKey.dates).all Date.isPlain then some ⟨tag, charset, keys'⟩ else none) ∧
      SearchLine.read? Date.signedYear? tokens = some ⟨tag, charset, keys'⟩ := by
  intro tag wire charset keys'
  have htag : Token.Wordy tag := TagSource.wordy_current n
  have hproper := SearchLine.proper_tokens htag (TagSource.current_ne_nil n) keys
  have hwire : wire = Token.join unasked (SearchLine.tokens tag keys) ++ Octet.crlf :=
    SearchLine.wire_search tag keys unasked
  have hcharset : (if keys.any SearchKey.needsUtf8 then some "UTF-8" else none) = charset :=
    ite_congr (propext (SearchLine.any_needsUtf8 htag keys)) (fun _ => rfl) fun _ => rfl
  refine ⟨SearchLine.tokens tag keys, ?_, hwire, ?_, ?_, ?_⟩
  · rw [hwire]
    exact Token.read?_join hproper (List.cons_ne_nil _ _)
  · rintro token htoken ⟨b, hb, hupper⟩
    exact (hproper token htoken).counted_of_upper hb hupper
  · rw [SearchLine.read?_tokens Date.ofSearch?_fourDigits htag, hcharset]
    rfl
  · have hsigned : ∀ d : Date, Date.ofSearch? Date.signedYear? d.searchText.toList =
        if (fun _ => true) d then some d else none := Date.ofSearch?_signed
    have hall : ((keys.flatMap SearchKey.dates).all fun _ => true) = true := by simp
    rw [SearchLine.read?_tokens hsigned htag, hcharset, hall]
    rfl

/-- A year that has no four digits is written with a sign, which no search has. -/
theorem search_of_distant_year :
    (Command.search [.since ⟨10000, 1, 1, by decide⟩]).wire ({ next := 1 } : TagSource).current false =
        Octet.ofText "A0001 UID SEARCH SINCE 1-Jan-+10000\r\n" ∧
      (Token.read? (Octet.ofText "A0001 UID SEARCH SINCE 1-Jan-+10000\r\n")).bind
        (SearchLine.read? Date.fourDigits?) = none := by
  have hwire : (Command.search [.since ⟨10000, 1, 1, by decide⟩]).wire ({ next := 1 } : TagSource).current
      false = Octet.ofText "A0001 UID SEARCH SINCE 1-Jan-+10000\r\n" := by
    decide +kernel
  have htag : Token.Wordy ({ next := 1 } : TagSource).current := TagSource.wordy_current 1
  refine ⟨hwire, ?_⟩
  rw [← hwire, SearchLine.wire_search, Token.read?_join
    (SearchLine.proper_tokens htag (TagSource.current_ne_nil 1) _) (List.cons_ne_nil _ _)]
  exact SearchLine.read?_tokens Date.ofSearch?_fourDigits htag _

end Mailroom
