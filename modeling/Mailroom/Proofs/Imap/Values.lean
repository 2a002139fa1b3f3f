import Mailroom.Proofs.Imap.Spelling
import Mailroom.Proofs.Text.Case
import Mailroom.Proofs.Text.Lossy

/-! Values as they are written, read back.

`Value.Writes` lists the forms in which a value may be written, and `Value.Fits` says which values there
are: those whose words stand for themselves, whose numbers have 64 bits, and whose brackets nest so deep
and no deeper. -/
namespace Mailroom

namespace Value
open Cursor

/-- The word can be written bare, and is read as itself: it is neither the word for nothing nor a number
of 64 bits. -/
structure IsWord (word : String) : Prop where
  nonempty : word.toList ≠ []
  bare : ∀ b ∈ Utf8.encode word, isAtomByte b = true
  present : Ascii.same word "NIL" = false
  unnumbered : ∀ n ∈ Decimal.digits? word.toList, UInt64.size ≤ n

instance (word : String) : Decidable (IsWord word) :=
  decidable_of_iff (word.toList ≠ [] ∧ (∀ b ∈ Utf8.encode word, isAtomByte b = true) ∧
      Ascii.same word "NIL" = false ∧ ∀ n ∈ Decimal.digits? word.toList, UInt64.size ≤ n)
    ⟨fun ⟨hne, hbare, hnil, hnumber⟩ => ⟨hne, hbare, hnil, hnumber⟩,
      fun h => ⟨h.nonempty, h.bare, h.present, h.unnumbered⟩⟩

/-- A value that can be read, with brackets that nest at most `depth` deep. -/
inductive Fits : Nat → Value → Prop
  | atom {depth : Nat} {word : String} (h : IsWord word) : Fits depth (.atom word)
  | number {depth n : Nat} (h : n < UInt64.size) : Fits depth (.number n)
  | quoted {depth : Nat} (bytes : Bytes) : Fits depth (.quoted bytes)
  | literal {depth : Nat} (bytes : Bytes) : Fits depth (.literal bytes)
  | absent {depth : Nat} : Fits depth .absent
  | list {depth : Nat} {items : List Value} (h : ∀ v ∈ items, Fits depth v) : Fits (depth + 1) (.list items)
  | bracketed {depth : Nat} {items : List Value} (h : ∀ v ∈ items, Fits depth v) :
    Fits (depth + 1) (.bracketed items)

mutual

/-- Whether the value can be read. -/
def isReadable (depth : Nat) : Value → Bool
  | atom word => decide (IsWord word)
  | number n => decide (n < UInt64.size)
  | quoted _ => true
  | literal _ => true
  | absent => true
  | list items =>
    match depth with
    | 0 => false
    | depth + 1 => areReadable depth items
  | bracketed items =>
    match depth with
    | 0 => false
    | depth + 1 => areReadable depth items

/-- Whether all of the values can be read. -/
def areReadable (depth : Nat) : List Value → Bool
  | [] => true
  | v :: rest => isReadable depth v && areReadable depth rest

end

mutual

theorem isReadable_iff (depth : Nat) (v : Value) : isReadable depth v = true ↔ Fits depth v := by
  cases v with
  | atom word =>
    rw [isReadable, decide_eq_true_eq]
    refine ⟨.atom, fun h => ?_⟩
    cases h with
    | atom h => exact h
  | number n =>
    rw [isReadable, decide_eq_true_eq]
    refine ⟨.number, fun h => ?_⟩
    cases h with
    | number h => exact h
  | quoted bytes => exact ⟨fun _ => .quoted bytes, fun _ => rfl⟩
  | literal bytes => exact ⟨fun _ => .literal bytes, fun _ => rfl⟩
  | absent => exact ⟨fun _ => .absent, fun _ => rfl⟩
  | list items =>
    cases depth with
    | zero => exact ⟨nofun, nofun⟩
    | succ depth =>
      refine (areReadable_iff depth items).trans ⟨.list, fun h => ?_⟩
      cases h with
      | list h => exact h
  | bracketed items =>
    cases depth with
    | zero => exact ⟨nofun, nofun⟩
    | succ depth =>
      refine (areReadable_iff depth items).trans ⟨.bracketed, fun h => ?_⟩
      cases h with
      | bracketed h => exact h

theorem areReadable_iff (depth : Nat) (items : List Value) :
    areReadable depth items = true ↔ ∀ v ∈ items, Fits depth v := by
  match items with
  | [] => exact ⟨fun _ => List.forall_mem_nil _, fun _ => rfl⟩
  | v :: rest =>
    rw [areReadable, Bool.and_eq_true, List.forall_mem_cons, isReadable_iff depth v, areReadable_iff depth rest]

end

instance (depth : Nat) (v : Value) : Decidable (Fits depth v) := decidable_of_iff _ (isReadable_iff depth v)

/-- Whether nothing but the next byte says where a value ends. -/
def isBare : Value → Bool
  | atom _ => true
  | number _ => true
  | absent => true
  | _ => false

/-! ### How values are written -/

/-- A byte between quotation marks. -/
def escape (b : UInt8) : Bytes :=
  if b ∈ [Octet.quote, Octet.backslash, Octet.cr, Octet.lf] then [Octet.backslash, b] else [b]

mutual

/-- A value as it is usually written. -/
def wire : Value → Bytes
  | atom word => Utf8.encode word
  | number n => Octet.ofDigits n
  | quoted bytes => Octet.quote :: (bytes.flatMap escape ++ [Octet.quote])
  | literal bytes => Request.announcement false bytes.length ++ bytes
  | absent => Octet.ofText "NIL"
  | list items => Octet.openParen :: (wireAll items ++ [Octet.closeParen])
  | bracketed items => Octet.openBracket :: (wireAll items ++ [Octet.closeBracket])

/-- Values with a space between any two of them. -/
def wireAll : List Value → Bytes
  | [] => []
  | [v] => wire v
  | v :: rest => wire v ++ Octet.space :: wireAll rest

end

/-- What stands between quotation marks for some bytes. Any of them may come behind a backslash. -/
inductive Escapes : Bytes → Bytes → Prop
  | nil : Escapes [] []
  | plain {b : UInt8} {bytes written : Bytes} (hline : inLine b = true) (hquote : b ≠ Octet.quote)
    (hback : b ≠ Octet.backslash) (h : Escapes bytes written) : Escapes (b :: bytes) (b :: written)
  | escaped (b : UInt8) {bytes written : Bytes} (h : Escapes bytes written) :
    Escapes (b :: bytes) (Octet.backslash :: b :: written)

/-- Values one after the other, with any number of spaces, and where `R` says how each is written. A bare
one has to end where the next begins. -/
inductive Separated (R : Value → Bytes → Prop) : List Value → Bytes → Prop
  | nil : Separated R [] []
  | space {values : List Value} {bytes : Bytes} (h : Separated R values bytes) :
    Separated R values (Octet.space :: bytes)
  | cons {v : Value} {values : List Value} {bytes more : Bytes} (hv : R v bytes)
    (hends : v.isBare = true → ∀ b, more.head? = some b → isAtomByte b = false)
    (h : Separated R values more) : Separated R (v :: values) (bytes ++ more)

/-- The forms in which a value is written. -/
inductive Writes : Value → Bytes → Prop
  | atom (word : String) : Writes (.atom word) (Utf8.encode word)
  | number {word : String} {n : Nat} (h : Decimal.digits? word.toList = some n) :
    Writes (.number n) (Utf8.encode word)
  | quoted {bytes written : Bytes} (h : Escapes bytes written) :
    Writes (.quoted bytes) (Octet.quote :: (written ++ [Octet.quote]))
  | literal (unasked : Bool) (bytes : Bytes) :
    Writes (.literal bytes) (Request.announcement unasked bytes.length ++ bytes)
  | absent {word : String} (h : Ascii.same word "NIL" = true) : Writes .absent (Utf8.encode word)
  | list {items : List Value} {bytes : Bytes} (h : Separated Writes items bytes) :
    Writes (.list items) (Octet.openParen :: (bytes ++ [Octet.closeParen]))
  | bracketed {items : List Value} {bytes : Bytes} (h : Separated Writes items bytes) :
    Writes (.bracketed items) (Octet.openBracket :: (bytes ++ [Octet.closeBracket]))

theorem escapes_escape (bytes : Bytes) : Escapes bytes (bytes.flatMap escape) := by
  induction bytes with
  | nil => exact .nil
  | cons b bytes ih =>
    rw [List.flatMap_cons, escape]
    split
    · exact .escaped b ih
    · next hplain =>
      simp only [List.mem_cons, List.not_mem_nil, or_false, not_or] at hplain
      obtain ⟨hquote, hback, hcr, hlf⟩ := hplain
      exact .plain (by simp [inLine, hcr, hlf]) hquote hback ih

mutual

theorem writes_wire (v : Value) : Writes v v.wire := by
  cases v with
  | atom word => exact .atom word
  | number n =>
    have hdigits : Decimal.digits? (Decimal.text n).toList = some n := by
      rw [Decimal.text, String.toList_ofList]
      exact Decimal.digits?_digits n
    rw [wire, ← Octet.ofText_decimal]
    exact .number hdigits
  | quoted bytes => exact .quoted (escapes_escape bytes)
  | literal bytes => exact .literal false bytes
  | absent => exact .absent rfl
  | list items => exact .list (separated_wireAll items)
  | bracketed items => exact .bracketed (separated_wireAll items)

theorem separated_wireAll (values : List Value) : Separated Writes values (wireAll values) := by
  match values with
  | [] => exact .nil
  | [v] =>
    have hv : Separated Writes [v] (v.wire ++ []) := .cons (writes_wire v) nofun .nil
    rwa [List.append_nil] at hv
  | v :: next :: rest =>
    refine .cons (writes_wire v) (fun _ b hb => ?_) (.space (separated_wireAll (next :: rest)))
    cases hb
    rfl

end

end Value

namespace Cursor
open Value
variable {bytes written more rest : Bytes} {position depth n : Nat} {word : String} {v : Value}
  {items values taken : List Value} {before : Bytes}

/-! ### Bare values -/

theorem isAtomByte_of {b : UInt8} (h : Octet.isDigit b = true ∨ (0x61 ≤ b ∧ b ≤ 0x7a) ∨ 0x80 ≤ b) :
    isAtomByte b = true := by
  simp only [Octet.isDigit, isAtomByte, Bool.and_eq_true, decide_eq_true_eq, bne_iff_ne, ne_eq,
    UInt8.le_iff_toNat_le, UInt8.lt_iff_toNat_lt, ← UInt8.toNat_inj, UInt8.reduceToNat, Octet.space,
    Octet.quote, Octet.openParen, Octet.closeParen, Octet.openBracket, Octet.closeBracket,
    Octet.openBrace] at h ⊢
  omega

/-- Small letters do, so that a name in any letter case is a word if it is one in capitals. -/
theorem isAtomByte_small {b : UInt8} (hlow : 0x61 ≤ b) (hhigh : b ≤ 0x7a) : isAtomByte b = true :=
  isAtomByte_of (.inr (.inl ⟨hlow, hhigh⟩))

theorem ofWord_word (h : IsWord word) : ofWord (Utf8.encode word) = .atom word := by
  have hnumber : Octet.number? UInt64.size (Utf8.encode word) = none := by
    rw [Octet.number?_encode, Option.filter_eq_none_iff]
    simpa using h.unnumbered
  rw [ofWord, Utf8.lossy_encode, h.present, hnumber]
  rfl

theorem same_nil_of_digits (h : Decimal.digits? word.toList = some n) : Ascii.same word "NIL" = false := by
  rw [Ascii.same, beq_eq_false_iff_ne]
  intro heq
  have hletter : 'N' ∈ (Ascii.upper word).toList := by
    rw [heq]
    decide
  rw [Ascii.upper_digits (Decimal.isDigit_of_digits? h)] at hletter
  exact absurd (Decimal.isDigit_of_digits? h _ hletter) (by decide)

theorem ofWord_number (h : Decimal.digits? word.toList = some n) (hn : n < UInt64.size) :
    ofWord (Utf8.encode word) = .number n := by
  have hnumber : Octet.number? UInt64.size (Utf8.encode word) = some n := by
    rw [Octet.number?_encode, h]
    simpa using hn
  rw [ofWord, Utf8.lossy_encode, same_nil_of_digits h, hnumber]
  rfl

theorem ofWord_absent (h : Ascii.same word "NIL" = true) : ofWord (Utf8.encode word) = .absent := by
  rw [ofWord, Utf8.lossy_encode, h]
  rfl

/-- What a bare word is read as: itself, if it is a word, and otherwise nothing that has a text. -/
theorem ofWord_cases (hne : word.toList ≠ []) (h : ∀ b ∈ Utf8.encode word, isAtomByte b = true) :
    Writes (ofWord (Utf8.encode word)) (Utf8.encode word) ∧
      (IsWord word ∧ ofWord (Utf8.encode word) = .atom word ∨
        ¬ IsWord word ∧ (ofWord (Utf8.encode word)).text? = none) := by
  unfold ofWord
  rw [Utf8.lossy_encode, Octet.number?_encode]
  dsimp only
  split
  · next hnil => exact ⟨.absent hnil, .inr ⟨fun hword => by simp [hword.present] at hnil, rfl⟩⟩
  · next hpresent =>
    split
    · next n hn =>
      rw [Option.filter_eq_some_iff] at hn
      refine ⟨.number hn.1, .inr ⟨fun hword => ?_, rfl⟩⟩
      exact Nat.not_lt.mpr (hword.unnumbered n hn.1) (by simpa using hn.2)
    · next hn =>
      rw [Option.filter_eq_none_iff] at hn
      exact ⟨.atom word, .inl ⟨⟨hne, h, Bool.eq_false_iff.mpr hpresent, by simpa using hn⟩, rfl⟩⟩

/-- A bare word goes as far as its bytes can stand in one. -/
theorem atom_run (hne : bytes ≠ []) (h : ∀ b ∈ bytes, isAtomByte b = true)
    (hrest : ∀ b, rest.head? = some b → isAtomByte b = false) :
    atom ⟨position, bytes ++ rest⟩ = .ok (ofWord bytes, ⟨position + bytes.length, rest⟩) := by
  obtain ⟨htaken, hdropped⟩ := span_run h hrest
  rw [atom, bind_apply, takeWhile_run]
  dsimp only
  rw [htaken, hdropped, if_neg (by simpa using hne)]
  rfl

/-- The bytes of a bare value. -/
theorem writes_bare (hfits : Fits depth v) (hbare : v.isBare = true) (hw : Writes v bytes) :
    bytes ≠ [] ∧ (∀ b ∈ bytes, isAtomByte b = true) ∧ ofWord bytes = v := by
  cases hw with
  | atom word =>
    cases hfits with
    | atom h => exact ⟨Utf8.encode_ne_nil h.nonempty, h.bare, ofWord_word h⟩
  | @number word n h =>
    cases hfits with
    | number hn =>
      refine ⟨Utf8.encode_ne_nil (Decimal.ne_nil_of_digits? h), fun b hb => ?_, ofWord_number h hn⟩
      exact isAtomByte_of (.inl (Octet.encode_digit (Decimal.isDigit_of_digits? h) hb))
  | @absent word h =>
    have hupper : Ascii.upper word = "NIL" := beq_iff_eq.mp h
    have hchars : word.toList ≠ [] := fun hempty => by
      rw [Ascii.upper, hempty] at hupper
      exact absurd hupper (by decide)
    refine ⟨Utf8.encode_ne_nil hchars, ?_, ofWord_absent h⟩
    exact Ascii.mem_encode_of_upper (fun _ => isAtomByte_small) (by rw [hupper]; decide)
  | quoted => cases hbare
  | literal => cases hbare
  | list => cases hbare
  | bracketed => cases hbare

/-! ### Values of any form -/

/-- Whether a value may begin with a byte, or at least a list goes on where it stands. -/
def opens (b : UInt8) : Bool :=
  inLine b && b != Octet.space && b != Octet.closeParen && b != Octet.closeBracket

theorem opens_atomByte {b : UInt8} (h : isAtomByte b = true) : opens b = true := by
  simp only [isAtomByte, opens, inLine, Bool.and_eq_true, decide_eq_true_eq, bne_iff_ne, ne_eq,
    UInt8.lt_iff_toNat_lt, ← UInt8.toNat_inj, UInt8.reduceToNat, Octet.space, Octet.cr, Octet.lf,
    Octet.quote, Octet.openParen, Octet.closeParen, Octet.openBracket, Octet.closeBracket,
    Octet.openBrace] at h ⊢
  omega

theorem inLine_atomByte {b : UInt8} (h : isAtomByte b = true) : inLine b = true ∧ b ≠ Octet.space := by
  have hopens := opens_atomByte h
  simp only [opens, Bool.and_eq_true, bne_iff_ne] at hopens
  exact hopens.1.1

/-- In front of `rest` the reader takes `bytes` and makes `a` of them, as long as they end at an address. -/
def Takes {α : Type} (r : Reader α) (bytes rest : Bytes) (a : α) : Prop :=
  ∀ position, position + bytes.length < UInt64.size →
    r ⟨position, bytes ++ rest⟩ = .ok (a, ⟨position + bytes.length, rest⟩)

/-- Whatever form the value is written in, `one` reads it and stops right behind it. -/
structure Recovers (one : Reader Value) (v : Value) : Prop where
  starts : ∀ bytes, Writes v bytes → ∃ b more, bytes = b :: more ∧ opens b = true
  reads : ∀ bytes rest, Writes v bytes →
    (v.isBare = true → ∀ b, rest.head? = some b → isAtomByte b = false) → Takes one bytes rest v

theorem quotedFrom_escapes (h : Escapes bytes written) :
    quotedFrom position before (written ++ Octet.quote :: rest) =
      .ok (before.reverse ++ bytes, ⟨position + written.length + 1, rest⟩) := by
  induction h generalizing position before with
  | nil =>
    rw [List.nil_append, quotedFrom.eq_def]
    dsimp only
    rw [if_pos rfl, List.append_nil]
    rfl
  | @plain b bytes written hline hquote hback h ih =>
    rw [List.cons_append, quotedFrom.eq_def]
    dsimp only
    rw [if_neg hquote, if_neg hback, if_pos hline, ih]
    simp
    omega
  | escaped b h ih =>
    rw [List.cons_append, List.cons_append, quotedFrom.eq_def]
    dsimp only
    rw [if_neg (by decide), if_pos rfl, ih]
    simp
    omega

theorem valuesFrom_space {one : Reader Value} {close : UInt8} {limit : Nat} :
    valuesFrom one close (limit + 1) taken ⟨position, Octet.space :: rest⟩ =
      valuesFrom one close (limit + 1) taken ⟨position + 1, rest⟩ := by
  have hcount : position + ((rest.takeWhile (· == Octet.space)).length + 1) =
      position + 1 + (rest.takeWhile (· == Octet.space)).length := by
    omega
  rw [valuesFrom, bind_apply, bind_apply, takeWhile_run, takeWhile_run]
  dsimp only
  rw [List.takeWhile_cons_of_pos (by decide), List.dropWhile_cons_of_pos (by decide), List.length_cons, hcount]

/-- Where no space stands, what is next decides. -/
theorem valuesFrom_here {one : Reader Value} {b close : UInt8} {limit : Nat} (hb : b ≠ Octet.space) :
    valuesFrom one close (limit + 1) taken ⟨position, b :: rest⟩ =
      if b = close then .ok (taken.reverse, ⟨position + 1, rest⟩)
      else if inLine b then (one >>= fun v => valuesFrom one close limit (v :: taken)) ⟨position, b :: rest⟩
      else .error (.malformed position (.unclosed close)) := by
  have htaken : (b :: rest).takeWhile (· == Octet.space) = [] := by simp [hb]
  have hdropped : (b :: rest).dropWhile (· == Octet.space) = b :: rest := by simp [hb]
  rw [valuesFrom, bind_apply, takeWhile_run]
  dsimp only
  rw [htaken, hdropped, List.length_nil, Nat.add_zero, bind_apply]
  by_cases hclose : b = close
  · rw [hclose, eat_next, if_pos rfl]
    rfl
  · have hend : atEnd ⟨position, b :: rest⟩ = !inLine b := by
      simp [atEnd, inLine, bne]
    rw [eat_other (by simpa [isNext] using hclose), if_neg hclose]
    show (if atEnd ⟨position, b :: rest⟩ = true then _ else _ : Reader (List Value)) _ = _
    rw [hend]
    cases inLine b <;> rfl

theorem valuesFrom_open {one : Reader Value} {b close : UInt8} {limit : Nat} (hopens : opens b = true)
    (hclose : close = Octet.closeParen ∨ close = Octet.closeBracket) :
    valuesFrom one close (limit + 1) taken ⟨position, b :: rest⟩ =
      (one >>= fun v => valuesFrom one close limit (v :: taken)) ⟨position, b :: rest⟩ := by
  simp only [opens, Bool.and_eq_true, bne_iff_ne] at hopens
  obtain ⟨⟨⟨hline, hspace⟩, hparen⟩, hbracket⟩ := hopens
  rw [valuesFrom_here hspace, if_neg (by rcases hclose with rfl | rfl <;> assumption), if_pos hline]

/-- Members are read one after the other, up to whatever comes after them. -/
theorem valuesFrom_separated {one : Reader Value} {close : UInt8} {limit : Nat}
    (hclose : close = Octet.closeParen ∨ close = Octet.closeBracket) (h : Separated Writes values bytes)
    (hone : ∀ v ∈ values, Recovers one v) (hrest : ∀ b, rest.head? = some b → isAtomByte b = false)
    (hend : position + bytes.length < UInt64.size) :
    valuesFrom one close (values.length + (limit + 1)) taken ⟨position, bytes ++ rest⟩ =
      valuesFrom one close (limit + 1) (values.reverse ++ taken) ⟨position + bytes.length, rest⟩ := by
  induction h generalizing position taken with
  | nil => simp
  | @space values bytes h ih =>
    rw [List.length_cons] at hend
    rw [List.cons_append, ← Nat.add_assoc, valuesFrom_space, Nat.add_assoc, ih hone (by omega),
      List.length_cons]
    congr 2
    omega
  | @cons v values bytes more hv hends h ih =>
    obtain ⟨hfirst, hothers⟩ := List.forall_mem_cons.mp hone
    obtain ⟨b, front, rfl, hopens⟩ := hfirst.starts bytes hv
    rw [List.length_append] at hend
    have hread := hfirst.reads (b :: front) (more ++ rest) hv (fun hbare b hb => ?_) position (by omega)
    · have hlength : (v :: values).length + (limit + 1) = values.length + (limit + 1) + 1 := by
        rw [List.length_cons]
        omega
      rw [List.append_assoc, hlength, List.cons_append, valuesFrom_open hopens hclose, bind_apply,
        ← List.cons_append, hread]
      dsimp only
      rw [ih hothers (by omega), List.reverse_cons, List.append_assoc, List.length_append, ← Nat.add_assoc]
      rfl
    · cases more with
      | nil => exact hrest b hb
      | cons next more => exact hends hbare b hb

theorem length_separated {one : Reader Value} (h : Separated Writes values bytes)
    (hone : ∀ v ∈ values, Recovers one v) : values.length ≤ bytes.length := by
  induction h with
  | nil => exact Nat.le_refl 0
  | space h ih => exact Nat.le_succ_of_le (ih hone)
  | @cons v values bytes more hv hends h ih =>
    obtain ⟨hfirst, hothers⟩ := List.forall_mem_cons.mp hone
    obtain ⟨b, front, rfl, -⟩ := hfirst.starts bytes hv
    have hle := ih hothers
    simp
    omega

/-- Members up to the closing bracket. -/
theorem valuesUntil_separated {one : Reader Value} {close : UInt8}
    (hclose : close = Octet.closeParen ∨ close = Octet.closeBracket) (h : Separated Writes values bytes)
    (hone : ∀ v ∈ values, Recovers one v) (hend : position + bytes.length < UInt64.size) :
    valuesUntil one close ⟨position, bytes ++ close :: rest⟩ =
      .ok (values, ⟨position + bytes.length + 1, rest⟩) := by
  have hcount := length_separated h hone
  have hlimit : (bytes ++ close :: rest).length + 1 =
      values.length + ((bytes ++ close :: rest).length - values.length + 1) := by
    rw [List.length_append] at *
    omega
  have hother : ∀ b, (close :: rest).head? = some b → isAtomByte b = false := by
    intro b hb
    cases hb
    rcases hclose with rfl | rfl <;> rfl
  rw [valuesUntil, hlimit, valuesFrom_separated hclose h hone hother hend, valuesFrom_here, if_pos rfl,
    List.append_nil, List.reverse_reverse]
  rcases hclose with rfl | rfl <;> decide

theorem bracket_separated {one : Reader Value} {opening close : UInt8} {make : List Value → Value}
    (hclose : close = Octet.closeParen ∨ close = Octet.closeBracket) (h : Separated Writes values bytes)
    (hone : ∀ v ∈ values, Recovers one v) (hend : position + 1 + bytes.length < UInt64.size) :
    bracket (some one) close make ⟨position, opening :: (bytes ++ close :: rest)⟩ =
      .ok (make values, ⟨position + (bytes.length + 2), rest⟩) := by
  have hposition : position + 1 + bytes.length + 1 = position + (bytes.length + 2) := by omega
  show (make <$> valuesUntil one close) ⟨position + 1, bytes ++ close :: rest⟩ = _
  rw [map_eq_pure_bind, bind_apply, valuesUntil_separated hclose h hone hend, hposition]
  rfl

/-! What a value is, its first byte says. -/

theorem valueWithin_by (depth : Nat) : ∃ one, valueWithin literal depth = valueBy literal one := by
  cases depth with
  | zero => exact ⟨none, rfl⟩
  | succ depth => exact ⟨some (valueWithin literal depth), rfl⟩

theorem valueWithin_atom {b : UInt8} (h : isAtomByte b = true) :
    valueWithin literal depth ⟨position, b :: rest⟩ = atom ⟨position, b :: rest⟩ := by
  obtain ⟨one, hone⟩ := valueWithin_by depth
  have hother : ∀ c, isAtomByte c = false → b ≠ c := fun c hc heq => by simp [heq, hc] at h
  rw [hone, valueBy, bind_apply]
  show (if b = _ then _ else _ : Reader Value) _ = _
  rw [if_neg (hother _ rfl), if_neg (hother _ rfl), if_neg (hother _ rfl), if_neg (hother _ rfl),
    if_pos (inLine_atomByte h).1]

theorem valueWithin_quote : valueWithin literal depth ⟨position, Octet.quote :: rest⟩ =
    quoted ⟨position, Octet.quote :: rest⟩ := by
  obtain ⟨one, hone⟩ := valueWithin_by depth
  rw [hone, valueBy, bind_apply]
  rfl

theorem valueWithin_brace : valueWithin literal depth ⟨position, Octet.openBrace :: rest⟩ =
    literal ⟨position, Octet.openBrace :: rest⟩ := by
  obtain ⟨one, hone⟩ := valueWithin_by depth
  rw [hone, valueBy, bind_apply]
  rfl

theorem valueWithin_paren : valueWithin literal (depth + 1) ⟨position, Octet.openParen :: rest⟩ =
    bracket (some (valueWithin literal depth)) Octet.closeParen .list ⟨position, Octet.openParen :: rest⟩ := by
  rw [valueWithin, valueBy, bind_apply]
  rfl

theorem valueWithin_bracket : valueWithin literal (depth + 1) ⟨position, Octet.openBracket :: rest⟩ =
    bracket (some (valueWithin literal depth)) Octet.closeBracket .bracketed
      ⟨position, Octet.openBracket :: rest⟩ := by
  rw [valueWithin, valueBy, bind_apply]
  rfl

theorem recovers_bare (hfits : Fits depth v) (hbare : v.isBare = true) :
    Recovers (valueWithin literal depth) v where
  starts bytes hw := by
    obtain ⟨hne, hbytes, -⟩ := writes_bare hfits hbare hw
    obtain ⟨b, more, rfl⟩ := List.exists_cons_of_ne_nil hne
    exact ⟨b, more, rfl, opens_atomByte (hbytes b (List.mem_cons_self ..))⟩
  reads bytes rest hw hrest position hend := by
    obtain ⟨hne, hbytes, hword⟩ := writes_bare hfits hbare hw
    have hrun := @atom_run bytes rest position hne hbytes (hrest hbare)
    obtain ⟨b, more, rfl⟩ := List.exists_cons_of_ne_nil hne
    rw [List.cons_append, valueWithin_atom (hbytes b (List.mem_cons_self ..)), ← List.cons_append, hrun, hword]

theorem recovers_quoted (bytes : Bytes) : Recovers (valueWithin literal depth) (.quoted bytes) where
  starts _ hw := by
    cases hw with
    | @quoted _ written h => exact ⟨Octet.quote, written ++ [Octet.quote], rfl, rfl⟩
  reads _ rest hw hrest position hend := by
    cases hw with
    | @quoted _ written h =>
      have hposition : position + 1 + written.length + 1 =
          position + (Octet.quote :: (written ++ [Octet.quote])).length := by
        simp
        omega
      rw [List.cons_append, List.append_assoc, List.singleton_append, valueWithin_quote, quoted, bind_apply,
        expect_next]
      dsimp only
      rw [bind_apply, quotedFrom_escapes h, hposition]
      rfl

theorem recovers_literal (bytes : Bytes) : Recovers (valueWithin literal depth) (.literal bytes) where
  starts _ hw := by
    cases hw with
    | literal unasked => exact ⟨Octet.openBrace, _, rfl, rfl⟩
  reads _ rest hw hrest position hend := by
    cases hw with
    | literal unasked =>
      obtain ⟨more, hmore⟩ : ∃ more, Request.announcement unasked bytes.length ++ (bytes ++ rest) =
        Octet.openBrace :: more := ⟨_, rfl⟩
      rw [List.length_append] at hend ⊢
      rw [List.append_assoc, hmore, valueWithin_brace, ← hmore, literal_announcement (by omega), bind_apply,
        take_run (by simp), if_pos (by omega), List.take_left, List.drop_left, ← Nat.add_assoc]
      rfl

theorem recovers_enclosed {one outer : Reader Value} {opening close : UInt8} {make : List Value → Value}
    (hclose : close = Octet.closeParen ∨ close = Octet.closeBracket) (hopens : opens opening = true)
    (hwrites : ∀ written, Writes (make items) written →
      ∃ bytes, written = opening :: (bytes ++ [close]) ∧ Separated Writes items bytes)
    (houter : ∀ position rest, outer ⟨position, opening :: rest⟩ =
      bracket (some one) close make ⟨position, opening :: rest⟩)
    (hone : ∀ v ∈ items, Recovers one v) : Recovers outer (make items) where
  starts written hw := by
    obtain ⟨bytes, rfl, -⟩ := hwrites written hw
    exact ⟨opening, bytes ++ [close], rfl, hopens⟩
  reads written rest hw _ position hend := by
    obtain ⟨bytes, rfl, h⟩ := hwrites written hw
    simp only [List.length_cons, List.length_append, List.length_nil] at hend
    rw [List.cons_append, List.append_assoc, List.singleton_append, houter,
      bracket_separated hclose h hone (by omega)]
    simp

/-- Every value that fits is read, in whatever form. -/
theorem recovers_of_fits (h : Fits depth v) : Recovers (valueWithin literal depth) v := by
  induction h with
  | atom h => exact recovers_bare (.atom h) rfl
  | number h => exact recovers_bare (.number h) rfl
  | absent => exact recovers_bare .absent rfl
  | quoted bytes => exact recovers_quoted bytes
  | literal bytes => exact recovers_literal bytes
  | @list depth items hfits ih =>
    refine recovers_enclosed (.inl rfl) rfl (fun _ hw => ?_) (fun _ _ => valueWithin_paren) ih
    cases hw with
    | list h => exact ⟨_, rfl, h⟩
  | @bracketed depth items hfits ih =>
    refine recovers_enclosed (.inr rfl) rfl (fun _ hw => ?_) (fun _ _ => valueWithin_bracket) ih
    cases hw with
    | bracketed h => exact ⟨_, rfl, h⟩

/-! ### What is read -/

section
variable {α β : Type} {P : α → Prop} {Q : β → Prop} {r s : Reader α} {next : α → Reader β}

/-- Whatever the reader returns has the property. -/
def Yields (P : α → Prop) (r : Reader α) : Prop := ∀ c a d, r c = .ok (a, d) → P a

theorem Yields.any (r : Reader α) : Yields (fun _ => True) r := fun _ _ _ _ => trivial

theorem Yields.pure {a : α} (h : P a) : Yields P (Pure.pure a : Reader α) := by
  intro c a' d hrun
  cases hrun
  exact h

theorem Yields.bind (h : Yields P r) (hnext : ∀ a, P a → Yields Q (next a)) : Yields Q (r >>= next) := by
  intro c b e hrun
  rw [bind_apply] at hrun
  rcases hr : r c with fault | ⟨a, d⟩
  · rw [hr] at hrun
    cases hrun
  · rw [hr] at hrun
    exact hnext a (h c a d hr) d b e hrun

theorem Yields.ite {p : Prop} [Decidable p] (h : p → Yields P r) (h' : ¬ p → Yields P s) :
    Yields P (if p then r else s) := by
  by_cases hp : p
  · rw [if_pos hp]
    exact h hp
  · rw [if_neg hp]
    exact h' hp

theorem yields_fail (reason : Reason) : Yields P (fail reason : Reader α) := by
  intro c a d hrun
  cases hrun

end

theorem takeWhile_yields (p : UInt8 → Bool) : Yields (fun bytes => ∀ b ∈ bytes, p b = true) (takeWhile p) := by
  intro c taken d hrun
  rw [takeWhile_run] at hrun
  cases hrun
  exact fun b hb => List.mem_takeWhile_imp hb

/-- A word is one that stands for itself, unless it is read as something else. -/
theorem ofWord_fits (hne : bytes ≠ []) (h : ∀ b ∈ bytes, isAtomByte b = true) : Fits depth (ofWord bytes) := by
  unfold ofWord
  dsimp only
  split
  · exact .absent
  · next hpresent =>
    split
    · next n hnumber =>
      rw [Octet.number?_eq, Option.filter_eq_some_iff] at hnumber
      exact .number (by simpa using hnumber.2)
    · next hnumber =>
      refine .atom ⟨Utf8.lossy_ne_nil hne, fun b hb => ?_, Bool.eq_false_iff.mpr hpresent, fun n hn => ?_⟩
      · by_cases hlower : b < 0x80
        · exact h b (Utf8.mem_of_mem_encode hb hlower)
        · exact isAtomByte_of (.inr (.inr (UInt8.not_lt.mp hlower)))
      · have hascii : ∀ c ∈ (Utf8.lossy bytes).toList, c.toNat < 128 := fun c hc =>
          Decimal.ascii_of_isDigit (Decimal.isDigit_of_digits? hn c hc)
        rw [Utf8.lossy_ascii hascii] at hn
        rw [Octet.number?_eq, hn] at hnumber
        simpa using hnumber

theorem atom_yields : Yields (Fits depth) atom := by
  refine (takeWhile_yields isAtomByte).bind fun bytes hbytes => .ite (fun _ => yields_fail _) fun hne => ?_
  exact .pure (ofWord_fits (by simpa using hne) hbytes)

theorem quoted_yields : Yields (Fits depth) quoted :=
  (Yields.any _).bind fun _ _ => (Yields.any _).bind fun bytes _ => .pure (.quoted bytes)

theorem literal_yields : Yields (Fits depth) literal := by
  refine (Yields.any _).bind fun _ _ => (Yields.any _).bind fun digits _ => ?_
  split
  · exact yields_fail _
  · exact (Yields.any _).bind fun _ _ => (Yields.any _).bind fun _ _ => (Yields.any _).bind fun _ _ =>
      (Yields.any _).bind fun _ _ => (Yields.any _).bind fun bytes _ => .pure (.literal bytes)

theorem valuesFrom_yields {P : Value → Prop} {one : Reader Value} (h : Yields P one) (close : UInt8)
    (limit : Nat) (htaken : ∀ v ∈ taken, P v) :
    Yields (fun values => ∀ v ∈ values, P v) (valuesFrom one close limit taken) := by
  induction limit generalizing taken with
  | zero => exact yields_fail _
  | succ limit ih =>
    refine (Yields.any _).bind fun _ _ => (Yields.any _).bind fun closed _ => .ite (fun _ => ?_) fun _ => ?_
    · exact .pure fun v hv => htaken v (List.mem_reverse.mp hv)
    · refine (Yields.any _).bind fun c _ => .ite (fun _ => yields_fail _) fun _ => ?_
      exact h.bind fun v hv => ih (List.forall_mem_cons.mpr ⟨hv, htaken⟩)

theorem bracket_yields {one : Option (Reader Value)} {make : List Value → Value}
    (h : ∀ r, one = some r → ∃ inner, depth = inner + 1 ∧ Yields (Fits inner) r)
    (hmake : ∀ inner values, (∀ v ∈ values, Fits inner v) → Fits (inner + 1) (make values)) (close : UInt8) :
    Yields (Fits depth) (bracket one close make) := by
  refine (Yields.any _).bind fun _ _ => ?_
  cases one with
  | none => exact yields_fail _
  | some r =>
    obtain ⟨inner, rfl, hr⟩ := h r rfl
    have hvalues : Yields (fun values => ∀ v ∈ values, Fits inner v) (valuesUntil r close) :=
      fun c values d => valuesFrom_yields hr close (c.rest.length + 1) (by simp) c values d
    show Yields (Fits (inner + 1)) (make <$> valuesUntil r close)
    rw [map_eq_pure_bind]
    exact hvalues.bind fun values hvalues => .pure (hmake inner values hvalues)

theorem valueBy_yields {one : Option (Reader Value)}
    (h : ∀ r, one = some r → ∃ inner, depth = inner + 1 ∧ Yields (Fits inner) r) :
    Yields (Fits depth) (valueBy literal one) := by
  refine (Yields.any _).bind fun c _ => ?_
  split
  · exact yields_fail _
  · refine .ite (fun _ => bracket_yields h (fun _ _ => .list) _) fun _ =>
      .ite (fun _ => bracket_yields h (fun _ _ => .bracketed) _) fun _ => ?_
    exact .ite (fun _ => quoted_yields) fun _ => .ite (fun _ => literal_yields) fun _ =>
      .ite (fun _ => atom_yields) fun _ => yields_fail _

/-- Every value that is read fits. -/
theorem valueWithin_yields (depth : Nat) : Yields (Fits depth) (valueWithin literal depth) := by
  induction depth with
  | zero => exact valueBy_yields nofun
  | succ depth ih =>
    refine valueBy_yields fun r hr => ?_
    cases hr
    exact ⟨depth, rfl, ih⟩

/-! ### Too many brackets -/

/-- Bytes in which more than `depth` brackets open and none of them closes. What stands in front of an
inner one can be read, and behind the last anything may follow. -/
inductive Nests : Nat → Bytes → Prop
  | deepest {opening : UInt8} {rest : Bytes} (h : opening = Octet.openParen ∨ opening = Octet.openBracket) :
    Nests 0 (opening :: rest)
  | deeper {depth : Nat} {opening : UInt8} {values : List Value} {bytes rest : Bytes}
    (h : opening = Octet.openParen ∨ opening = Octet.openBracket) (hfits : ∀ v ∈ values, Fits depth v)
    (hw : Separated Writes values bytes) (hrest : Nests depth rest) :
    Nests (depth + 1) (opening :: (bytes ++ rest))

theorem Nests.starts (h : Nests depth bytes) :
    ∃ b more, bytes = b :: more ∧ opens b = true ∧ isAtomByte b = false := by
  have hopening : ∀ b, b = Octet.openParen ∨ b = Octet.openBracket → opens b = true ∧ isAtomByte b = false := by
    intro b hb
    rcases hb with rfl | rfl <;> exact ⟨rfl, rfl⟩
  cases h with
  | deepest h => exact ⟨_, _, rfl, hopening _ h⟩
  | deeper h => exact ⟨_, _, rfl, hopening _ h⟩

theorem bracket_nests {one : Reader Value} {opening close : UInt8} {make : List Value → Value}
    (hclose : close = Octet.closeParen ∨ close = Octet.closeBracket) (hone : ∀ v ∈ values, Recovers one v)
    (hw : Separated Writes values bytes) (hrest : Nests depth rest)
    (hend : position + 1 + bytes.length < UInt64.size)
    (hinner : ∃ p, one ⟨position + 1 + bytes.length, rest⟩ = .error (.malformed p .tooDeep)) :
    ∃ p, bracket (some one) close make ⟨position, opening :: (bytes ++ rest)⟩ =
      .error (.malformed p .tooDeep) := by
  obtain ⟨p, hinner⟩ := hinner
  obtain ⟨b, more, rfl, hopens, hatom⟩ := hrest.starts
  refine ⟨p, ?_⟩
  have hcount := length_separated hw hone
  have hlimit : (bytes ++ b :: more).length + 1 =
      values.length + ((bytes ++ b :: more).length - values.length + 1) := by
    rw [List.length_append] at *
    omega
  have hother : ∀ c, (b :: more).head? = some c → isAtomByte c = false := by
    intro c hc
    cases hc
    exact hatom
  show (make <$> valuesUntil one close) ⟨position + 1, bytes ++ b :: more⟩ = _
  rw [map_eq_pure_bind, bind_apply, valuesUntil, hlimit, valuesFrom_separated hclose hw hone hother hend,
    valuesFrom_open hopens hclose, bind_apply, hinner]

/-- The bracket that is one too many is refused, whatever it holds. -/
theorem valueWithin_nests (h : Nests depth bytes) (hend : position + bytes.length < UInt64.size) :
    ∃ p, valueWithin literal depth ⟨position, bytes⟩ = .error (.malformed p .tooDeep) := by
  induction h generalizing position with
  | deepest h =>
    refine ⟨position + 1, ?_⟩
    rcases h with rfl | rfl <;> (rw [valueWithin, valueBy, bind_apply]; rfl)
  | @deeper depth opening values bytes rest h hfits hw hrest ih =>
    simp only [List.length_cons, List.length_append] at hend
    have hone : ∀ v ∈ values, Recovers (valueWithin literal depth) v := fun v hv => recovers_of_fits (hfits v hv)
    have hinner := @ih (position + 1 + bytes.length) (by omega)
    rcases h with rfl | rfl
    · rw [valueWithin_paren]
      exact bracket_nests (.inl rfl) hone hw hrest (by omega) hinner
    · rw [valueWithin_bracket]
      exact bracket_nests (.inr rfl) hone hw hrest (by omega) hinner

/-- In front of the first member that nests too deep the members can be read. -/
theorem separated_split (h : Separated Writes values bytes) (hone : ¬ ∀ v ∈ values, Fits depth v) :
    ∃ before v written front back, bytes = front ++ (written ++ back) ∧ v ∈ values ∧ ¬ Fits depth v ∧
      Writes v written ∧ (∀ u ∈ before, Fits depth u) ∧ Separated Writes before front := by
  induction h with
  | nil => exact absurd (by simp) hone
  | @space values bytes h ih =>
    obtain ⟨before, v, written, front, back, rfl, hmem, hdeep, hv, hfits, hbefore⟩ := ih hone
    exact ⟨before, v, written, Octet.space :: front, back, rfl, hmem, hdeep, hv, hfits, .space hbefore⟩
  | @cons u values bytes more hu hends h ih =>
    by_cases hfirst : Fits depth u
    · have hothers : ¬ ∀ v ∈ values, Fits depth v := fun hothers =>
        hone (List.forall_mem_cons.mpr ⟨hfirst, hothers⟩)
      obtain ⟨before, v, written, front, back, rfl, hmem, hdeep, hv, hfits, hbefore⟩ := ih hothers
      refine ⟨u :: before, v, written, bytes ++ front, back, (List.append_assoc ..).symm,
        List.mem_cons_of_mem _ hmem, hdeep, hv, List.forall_mem_cons.mpr ⟨hfirst, hfits⟩, .cons hu ?_ hbefore⟩
      intro hbare b hb
      cases front with
      | nil => cases hb
      | cons next front => exact hends hbare b hb
    · exact ⟨[], u, bytes, [], more, rfl, List.mem_cons_self .., hfirst, hu, by simp, .nil⟩

theorem nests_enclosed {opening : UInt8} (hopening : opening = Octet.openParen ∨ opening = Octet.openBracket)
    (hw : Separated Writes items bytes) (hdeep : ∀ inner, depth = inner + 1 → ¬ ∀ v ∈ items, Fits inner v)
    (hone : ∀ inner, depth = inner + 1 → ∀ v ∈ items, ¬ Fits inner v → ∀ written, Writes v written →
      ∀ rest, Nests inner (written ++ rest)) (rest : Bytes) : Nests depth (opening :: (bytes ++ rest)) := by
  cases depth with
  | zero => exact .deepest hopening
  | succ inner =>
    obtain ⟨before, v, written, front, back, rfl, hmem, hunfit, hv, hfits, hbefore⟩ :=
      separated_split hw (hdeep inner rfl)
    rw [List.append_assoc, List.append_assoc]
    exact .deeper hopening hfits hbefore (hone inner rfl v hmem hunfit written hv _)

/-- A value that nests deeper has that many brackets before any of them closes. -/
theorem nests_of_deep {enough : Nat} (h : Fits enough v) (hdeep : ¬ Fits depth v) (hw : Writes v bytes)
    (rest : Bytes) : Nests depth (bytes ++ rest) := by
  induction h generalizing depth bytes rest with
  | atom h => exact absurd (.atom h) hdeep
  | number h => exact absurd (.number h) hdeep
  | quoted => exact absurd (.quoted _) hdeep
  | literal => exact absurd (.literal _) hdeep
  | absent => exact absurd .absent hdeep
  | list hitems ih =>
    cases hw with
    | @list items inner h =>
      rw [List.cons_append, List.append_assoc]
      refine nests_enclosed (.inl rfl) h (fun d hd hfits => hdeep ?_) (fun d _ v hv hunfit written hw rest => ?_) _
      · rw [hd]
        exact .list hfits
      · exact ih v hv hunfit hw rest
  | bracketed hitems ih =>
    cases hw with
    | @bracketed items inner h =>
      rw [List.cons_append, List.append_assoc]
      refine nests_enclosed (.inr rfl) h (fun d hd hfits => hdeep ?_) (fun d _ v hv hunfit written hw rest => ?_) _
      · rw [hd]
        exact .bracketed hfits
      · exact ih v hv hunfit hw rest

/-- The reader of values reads exactly the values that fit. One that fits is read as it was written, up to
the end of the line or a byte that no word has, and no more than it is read. Whatever is read fits, and is
read again from what it is written as. Brackets that nest deeper are refused, closed or not. -/
theorem value_reads :
    (∀ v, Fits maxDepth v → ∀ position rest, (∀ b, rest.head? = some b → isAtomByte b = false) →
      position + v.wire.length < UInt64.size →
      value literal ⟨position, v.wire ++ rest⟩ = .ok (v, ⟨position + v.wire.length, rest⟩)) ∧
    (∀ c v d, value literal c = .ok (v, d) → Fits maxDepth v ∧
      (v.wire.length < UInt64.size → value literal (ofBytes v.wire) = .ok (v, ⟨v.wire.length, []⟩))) ∧
    (∀ position bytes, Nests maxDepth bytes → position + bytes.length < UInt64.size →
      ∃ p, value literal ⟨position, bytes⟩ = .error (.malformed p .tooDeep)) ∧
    ∀ v depth, Fits depth v → ¬ Fits maxDepth v → ∀ position rest,
      position + (v.wire ++ rest).length < UInt64.size →
      ∃ p, value literal ⟨position, v.wire ++ rest⟩ = .error (.malformed p .tooDeep) := by
  have hwritten : ∀ v, Fits maxDepth v → ∀ position rest, (∀ b, rest.head? = some b → isAtomByte b = false) →
      position + v.wire.length < UInt64.size →
      value literal ⟨position, v.wire ++ rest⟩ = .ok (v, ⟨position + v.wire.length, rest⟩) :=
    fun v hfits position rest hrest hend =>
      (recovers_of_fits hfits).reads v.wire rest (writes_wire v) (fun _ => hrest) position hend
  refine ⟨hwritten, fun c v d hread => ?_, fun position bytes => valueWithin_nests, ?_⟩
  · have hfits : Fits maxDepth v := valueWithin_yields maxDepth c v d hread
    refine ⟨hfits, fun hend => ?_⟩
    have hagain := hwritten v hfits 0 [] nofun (by omega)
    rwa [List.append_nil, Nat.zero_add] at hagain
  · intro v depth hfits hdeep position rest hend
    exact valueWithin_nests (nests_of_deep hfits hdeep (writes_wire v) rest) hend

/-- Lists in lists. -/
def nested : Nat → Value
  | 0 => .list []
  | n + 1 => .list [nested n]

theorem nested_fits (n : Nat) : Fits (n + 1) (nested n) := by
  induction n with
  | zero => exact .list (by simp)
  | succ n ih => exact .list (by simpa using ih)

theorem nested_unfit (n : Nat) : ¬ Fits n (nested n) := by
  induction n with
  | zero => nofun
  | succ n ih =>
    intro h
    cases h with
    | list h => exact ih (h _ (List.mem_singleton_self _))

theorem nests_replicate (n : Nat) : Nests n (List.replicate (n + 1) Octet.openParen) := by
  induction n with
  | zero => exact .deepest (.inl rfl)
  | succ n ih => exact .deeper (.inl rfl) (List.forall_mem_nil _) .nil ih

/-- A list with every kind of value in it. -/
def assorted : Value :=
  .list [.atom "BODY", .bracketed [.atom "HEADER"], .number 7, .quoted [Octet.quote], .literal Octet.crlf, .absent]

/-- It is read in front of another word and again on its own, and lists nest 64 deep but not 65. -/
theorem value_reads_assorted :
    value literal ⟨0, assorted.wire ++ Octet.ofText " x"⟩ =
        .ok (assorted, ⟨assorted.wire.length, Octet.ofText " x"⟩) ∧
      value literal (ofBytes assorted.wire) = .ok (assorted, ⟨assorted.wire.length, []⟩) ∧
      Fits maxDepth (nested 63) ∧ (∃ p, value literal ⟨0, (nested 64).wire⟩ = .error (.malformed p .tooDeep)) ∧
      ∃ p, value literal ⟨0, List.replicate 65 Octet.openParen⟩ = .error (.malformed p .tooDeep) := by
  have hfits : Fits maxDepth assorted := by decide +kernel
  have hread := value_reads.1 assorted hfits 0 (Octet.ofText " x") (by decide +kernel) (by decide +kernel)
  rw [Nat.zero_add] at hread
  have hagain := (value_reads.2.1 _ assorted _ hread).2 (by decide +kernel)
  have hdeep := value_reads.2.2.2 (nested 64) 65 (nested_fits 64) (nested_unfit 64) 0 [] (by decide +kernel)
  rw [List.append_nil] at hdeep
  exact ⟨hread, hagain, nested_fits 63, hdeep, value_reads.2.2.1 0 _ (nests_replicate 64) (by decide +kernel)⟩

end Cursor

end Mailroom
