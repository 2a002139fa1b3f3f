import Mailroom.Proofs.Imap.Agreement
import Mailroom.Proofs.Imap.Marks

/-! Strings as they are written, read back.

A string travels bare, between quotation marks or behind its length. `Spells` lists the forms that a
writer chooses from, and `string_spells` says that the reader of strings finds the same text in each of
them, whatever its bytes, and stops right behind it. -/
namespace Mailroom

namespace Piece

/-- Whether a byte can stand in a bare string, wildcards included. -/
def isBare (b : UInt8) : Bool := b == Octet.percent || b == Octet.star || !needsQuoting b

/-- The forms in which a text is written. -/
inductive Spells (s : String) : Piece → Prop
  | counted : Spells s (.counted (Utf8.encode s))
  | quoted (h : ∀ b ∈ Utf8.encode s, needsCount b = false) : Spells s (.quoted (Utf8.encode s))
  | bare (hne : Utf8.encode s ≠ []) (h : ∀ b ∈ Utf8.encode s, isBare b = true) :
    Spells s (.plain (Utf8.encode s))

theorem spells_shortest (s : String) : Spells s (shortest s) := by
  unfold shortest
  by_cases hcount : (Utf8.encode s).any needsCount = true
  · simp only [hcount, if_true]
    exact .counted
  · simp only [hcount, Bool.false_eq_true, if_false]
    rw [List.any_eq_true] at hcount
    split
    · exact .quoted fun b hb => Bool.eq_false_iff.mpr fun h => hcount ⟨b, hb, h⟩
    · next hbare =>
      rw [Bool.or_eq_true, not_or, List.isEmpty_iff, List.any_eq_true] at hbare
      refine .bare hbare.1 fun b hb => ?_
      have hb : needsQuoting b = false := Bool.eq_false_iff.mpr fun h => hbare.2 ⟨b, hb, h⟩
      rw [isBare, hb, Bool.not_false, Bool.or_true]

theorem spells_pattern (s : String) : Spells s (pattern s) := by
  unfold pattern
  dsimp only
  split
  · next hbare =>
    rw [Bool.and_eq_true, Bool.not_eq_true', List.isEmpty_eq_false_iff, List.all_eq_true] at hbare
    exact .bare hbare.1 hbare.2
  · exact spells_shortest s

theorem spells_string (s : String) : Spells s (string s) := by
  unfold string
  dsimp only
  split
  · exact .counted
  · next hcount =>
    rw [List.any_eq_true] at hcount
    exact .quoted fun b hb => Bool.eq_false_iff.mpr fun h => hcount ⟨b, hb, h⟩

theorem isBare_line {b : UInt8} (h : isBare b = true) :
    Cursor.inLine b = true ∧
      b ∉ [Octet.space, Octet.quote, Octet.openParen, Octet.closeParen, Octet.openBrace] := by
  constructor
  · rw [Cursor.inLine, Bool.and_eq_true, bne_iff_ne, bne_iff_ne]
    constructor <;> rintro rfl <;> exact absurd h (by decide)
  · intro hmem
    simp only [List.mem_cons, List.not_mem_nil, or_false] at hmem
    rcases hmem with rfl | rfl | rfl | rfl | rfl <;> exact absurd h (by decide)

theorem needsCount_line {b : UInt8} (h : needsCount b = false) : Cursor.inLine b = true := by
  rw [Cursor.inLine, Bool.and_eq_true, bne_iff_ne, bne_iff_ne]
  constructor <;> rintro rfl <;> exact absurd h (by decide)

/-- No form of a string ends like an announcement. -/
theorem Spells.calm {s : String} {piece : Piece} (h : Spells s piece)
    (hfits : ∀ bytes, piece = .counted bytes → bytes.length ≤ Frame.maxLiteral) : piece.Calm := by
  cases h with
  | counted => exact calm_counted (hfits _ rfl)
  | quoted h => exact calm_quoted fun hmem => absurd (h _ hmem) (by decide)
  | bare hne h =>
    exact calm_plain (fun hmem => absurd (h _ hmem) (by decide)) fun hmem => absurd (h _ hmem) (by decide)

end Piece

namespace Cursor
open Piece
variable {unasked : Bool} {bytes taken rest : Bytes} {position n : Nat} {s : String} {piece : Piece}

/-- A run of bytes in a class, up to one that is not. -/
theorem span_run {p : UInt8 → Bool} (h : ∀ b ∈ bytes, p b = true)
    (hrest : ∀ b, rest.head? = some b → p b = false) :
    (bytes ++ rest).takeWhile p = bytes ∧ (bytes ++ rest).dropWhile p = rest := by
  rw [List.takeWhile_append_of_pos h, List.dropWhile_append_of_pos h]
  rcases rest with _ | ⟨b, rest⟩
  · simp
  · have hb : ¬ p b = true := Bool.eq_false_iff.mp (hrest b rfl)
    rw [List.takeWhile_cons_of_neg hb, List.dropWhile_cons_of_neg hb, List.append_nil]
    exact ⟨rfl, rfl⟩

/-- Between quotation marks everything is read as it was before its escapes. -/
theorem quotedFrom_escape (h : ∀ b ∈ bytes, inLine b = true) :
    quotedFrom position taken (bytes.flatMap escape ++ Octet.quote :: rest) =
      .ok (taken.reverse ++ bytes, ⟨position + (bytes.flatMap escape).length + 1, rest⟩) := by
  induction bytes generalizing position taken with
  | nil =>
    rw [List.flatMap_nil, List.nil_append, quotedFrom.eq_def]
    dsimp only
    rw [if_pos rfl, List.append_nil]
    rfl
  | cons b bytes ih =>
    have hrest := fun position => @ih (b :: taken) position
      fun b hb => h b (List.mem_cons_of_mem _ hb)
    rw [List.flatMap_cons, List.append_assoc, List.length_append]
    by_cases hb : b = Octet.quote ∨ b = Octet.backslash
    · have hescape : escape b = [Octet.backslash, b] := if_pos hb
      rw [hescape, List.cons_append, quotedFrom.eq_def]
      dsimp only [List.cons_append, List.nil_append]
      rw [if_neg (by decide), if_pos rfl, hrest, List.reverse_cons, List.append_assoc]
      simp [Nat.add_assoc]
    · have hescape : escape b = [b] := if_neg hb
      rw [not_or] at hb
      rw [hescape, List.cons_append, List.nil_append, quotedFrom.eq_def]
      dsimp only
      rw [if_neg hb.1, if_neg hb.2, if_pos (h b (List.mem_cons_self ..)), hrest, List.reverse_cons,
        List.append_assoc]
      simp [Nat.add_assoc]

/-- A string that begins with a quotation mark is a quoted one. -/
theorem string_quote :
    string literal ⟨position, Octet.quote :: rest⟩ = quoted ⟨position, Octet.quote :: rest⟩ := by
  have hvalue : valueBy literal (some (valueWithin literal 63)) ⟨position, Octet.quote :: rest⟩ =
      quoted ⟨position, Octet.quote :: rest⟩ := by
    unfold valueBy
    rw [bind_apply]
    rfl
  exact hvalue

/-- A string that begins with an opening brace is one of announced length. -/
theorem string_brace :
    string literal ⟨position, Octet.openBrace :: rest⟩ = literal ⟨position, Octet.openBrace :: rest⟩ := by
  have hvalue : valueBy literal (some (valueWithin literal 63)) ⟨position, Octet.openBrace :: rest⟩ =
      literal ⟨position, Octet.openBrace :: rest⟩ := by
    unfold valueBy
    rw [bind_apply]
    rfl
  exact hvalue

theorem string_quoted (h : ∀ b ∈ bytes, inLine b = true) :
    string literal ⟨position, (Piece.quoted bytes).wire unasked ++ rest⟩ =
      .ok (.quoted bytes, ⟨position + ((Piece.quoted bytes).wire unasked).length, rest⟩) := by
  have hwire : (Piece.quoted bytes).wire unasked ++ rest =
      Octet.quote :: (bytes.flatMap escape ++ Octet.quote :: rest) := by
    simp [Piece.quoted, wire]
  have hlength : position + ((Piece.quoted bytes).wire unasked).length =
      position + 1 + (bytes.flatMap escape).length + 1 := by
    simp [Piece.quoted, wire]
    omega
  rw [hwire, hlength, string_quote, quoted, bind_apply, expect_next]
  dsimp only
  rw [bind_apply, quotedFrom_escape h]
  rfl

/-- The end of an announcement is passed. -/
theorem expect_close {α : Type} (reader : Reader α) :
    (do expect Octet.closeBrace; expect Octet.cr; expect Octet.lf; reader)
        ⟨position, Octet.closeBrace :: Octet.cr :: Octet.lf :: rest⟩ = reader ⟨position + 3, rest⟩ := by
  rw [bind_apply, expect_next]
  dsimp only
  rw [bind_apply, expect_next]
  dsimp only
  rw [bind_apply, expect_next]

/-- The digits of an announcement are passed. -/
theorem literal_digits (hn : n < UInt64.size) (hrest : ∀ b, rest.head? = some b → Octet.isDigit b = false) :
    literal ⟨position, Octet.openBrace :: (Octet.ofDigits n ++ rest)⟩ = (do
      let _ ← eat Octet.plus
      expect Octet.closeBrace
      expect Octet.cr
      expect Octet.lf
      let bytes ← take n
      pure (Value.literal bytes)) ⟨position + 1 + (Octet.ofDigits n).length, rest⟩ := by
  obtain ⟨htaken, hdropped⟩ := span_run (fun _ => Octet.ofDigits_digit (n := n)) hrest
  rw [literal, bind_apply, expect_next]
  dsimp only
  rw [bind_apply, takeWhile_run]
  dsimp only
  rw [htaken, hdropped, Octet.number?_ofDigits hn]

/-- An announcement is passed, and then as many bytes are taken as it says. -/
theorem literal_announcement (hn : n < UInt64.size) :
    literal ⟨position, Request.announcement unasked n ++ rest⟩ =
      (take n >>= fun bytes => pure (Value.literal bytes))
        ⟨position + (Request.announcement unasked n).length, rest⟩ := by
  cases unasked with
  | false =>
    have hline : Request.announcement false n ++ rest = Octet.openBrace :: (Octet.ofDigits n ++
        Octet.closeBrace :: Octet.cr :: Octet.lf :: rest) := by
      simp [Frame.announcement_eq, Frame.mark]
    have hlength : position + (Request.announcement false n).length =
        position + 1 + (Octet.ofDigits n).length + 3 := by
      simp [Frame.announcement_eq, Frame.mark]
      omega
    rw [hline, hlength, literal_digits hn (fun b hb => by cases hb; decide), bind_apply, eat_other rfl]
    exact expect_close _
  | true =>
    have hline : Request.announcement true n ++ rest = Octet.openBrace :: (Octet.ofDigits n ++
        Octet.plus :: Octet.closeBrace :: Octet.cr :: Octet.lf :: rest) := by
      simp [Frame.announcement_eq, Frame.mark]
    have hlength : position + (Request.announcement true n).length =
        position + 1 + (Octet.ofDigits n).length + 1 + 3 := by
      simp [Frame.announcement_eq, Frame.mark]
      omega
    rw [hline, hlength, literal_digits hn (fun b hb => by cases hb; decide), bind_apply, eat_next]
    exact expect_close _

theorem string_counted (h : position + ((Piece.counted bytes).wire unasked).length < UInt64.size) :
    string literal ⟨position, (Piece.counted bytes).wire unasked ++ rest⟩ =
      .ok (.literal bytes, ⟨position + ((Piece.counted bytes).wire unasked).length, rest⟩) := by
  have hbrace : ∃ more, Request.announcement unasked bytes.length ++ (bytes ++ rest) =
      Octet.openBrace :: more := ⟨_, rfl⟩
  obtain ⟨more, hmore⟩ := hbrace
  rw [wire, List.length_append] at h ⊢
  rw [List.append_assoc, hmore, string_brace, ← hmore, literal_announcement (by omega), bind_apply,
    take_run (by rw [List.length_append]; exact Nat.le_add_right ..), if_pos (by omega), List.take_left,
    List.drop_left, ← Nat.add_assoc]
  rfl

/-- A run of a bare string, up to a byte that no bare string has. -/
theorem string_bare (hne : bytes ≠ []) (h : ∀ b ∈ bytes, isBare b = true)
    (hrest : rest.head? = some Octet.space ∨ rest.head? = some Octet.cr) :
    string literal ⟨position, bytes ++ rest⟩ =
      .ok (.atom (Utf8.lossy bytes), ⟨position + bytes.length, rest⟩) := by
  have htaken : (bytes ++ rest).takeWhile (fun b => inLine b && b != Octet.space &&
      b != Octet.openParen && b != Octet.closeParen) = bytes ∧
      (bytes ++ rest).dropWhile (fun b => inLine b && b != Octet.space &&
        b != Octet.openParen && b != Octet.closeParen) = rest := by
    refine span_run (fun b hb => ?_) fun b hb => ?_
    · obtain ⟨hline, hother⟩ := isBare_line (h b hb)
      simp only [List.mem_cons, List.not_mem_nil, or_false, not_or] at hother
      simp [hline, hother]
    · rw [hb, Option.some.injEq, Option.some.injEq] at hrest
      rcases hrest with rfl | rfl <;> decide
  obtain ⟨first, bytes', rfl⟩ := List.exists_cons_of_ne_nil hne
  have hfirst := (isBare_line (h first (List.mem_cons_self ..))).2
  simp only [List.mem_cons, List.not_mem_nil, or_false, not_or] at hfirst
  have hform : (isNext Octet.quote ⟨position, first :: bytes' ++ rest⟩ ||
      isNext Octet.openBrace ⟨position, first :: bytes' ++ rest⟩) = false := by
    simp [isNext, hfirst]
  unfold string
  rw [bind_apply]
  show (if _ then _ else _ : Reader Value) _ = _
  rw [hform]
  show (takeWhile _ >>= _) _ = _
  rw [bind_apply, takeWhile_run]
  dsimp only
  rw [htaken.1, htaken.2]
  rfl

/-- Whatever the form of a string, its text is read back, and nothing more. -/
theorem string_spells (h : Spells s piece)
    (hrest : rest.head? = some Octet.space ∨ rest.head? = some Octet.cr)
    (hend : position + (piece.wire unasked).length < UInt64.size) :
    ∃ v, string literal ⟨position, piece.wire unasked ++ rest⟩ =
        .ok (v, ⟨position + (piece.wire unasked).length, rest⟩) ∧ v.text? = some s := by
  cases h with
  | counted =>
    refine ⟨.literal (Utf8.encode s), ?_, congrArg some (Utf8.lossy_encode s)⟩
    exact string_counted hend
  | quoted h =>
    refine ⟨.quoted (Utf8.encode s), ?_, congrArg some (Utf8.lossy_encode s)⟩
    exact string_quoted fun b hb => needsCount_line (h b hb)
  | bare hne h =>
    exact ⟨.atom (Utf8.lossy (Utf8.encode s)), string_bare hne h hrest, congrArg some (Utf8.lossy_encode s)⟩

end Cursor

end Mailroom
