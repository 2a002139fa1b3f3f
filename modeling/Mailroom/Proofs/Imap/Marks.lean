import Mailroom.Proofs.Imap.Lines

/-! Lines that end like an announcement, and lines that cannot.

The cutter looks for an announcement at the end of every line, so whether it goes on is a question of
what the line ends in: `announced_eq_none` says so. A writer who keeps the opening brace away from the
bare parts of a line is safe from that: `pending` follows how far an announcement may have come, and
pieces after which none is under way are `Calm`. -/
namespace Mailroom

/-! ### Bytes that end like an announcement -/

namespace Frame
variable {bytes line rest digits : Bytes} {n : Nat} {b : UInt8}

/-- The bytes end in the announcement of a string, whether they mean one or not. -/
def EndsInMark (bytes : Bytes) : Prop :=
  ∃ signed digits n, mark signed digits <:+ bytes ∧ Octet.number? UInt64.size digits = some n

theorem announcedDigits_eq_some (h : announcedDigits bytes = some digits) :
    digits.reverse ++ [Octet.openBrace] <+: bytes := by
  unfold announcedDigits at h
  split at h
  next heq =>
    cases h
    have hsplit : bytes.takeWhile Octet.isDigit ++ bytes.dropWhile Octet.isDigit = bytes :=
      List.takeWhile_append_dropWhile
    rw [heq, List.append_cons] at hsplit
    rw [List.reverse_reverse]
    exact ⟨_, hsplit⟩
  next => cases h

theorem announced?_eq_some (h : announced? bytes = some n) :
    ∃ signed digits, (mark signed digits).reverse <+: bytes ∧
      Octet.number? UInt64.size digits = some n := by
  unfold announced? at h
  split at h
  next rest =>
    obtain ⟨digits, hdigits, hn⟩ := Option.bind_eq_some_iff.mp h
    refine ⟨true, digits, ?_, hn⟩
    simpa [mark] using announcedDigits_eq_some hdigits
  next rest _ =>
    obtain ⟨digits, hdigits, hn⟩ := Option.bind_eq_some_iff.mp h
    refine ⟨false, digits, ?_, hn⟩
    simpa [mark] using announcedDigits_eq_some hdigits
  next => cases h

theorem announced_crlf (line : Bytes) : announced (line ++ Octet.crlf) = announced? line.reverse := by
  simp [announced]

/-- A line announces a string exactly if it ends like an announcement. -/
theorem announced_eq_none : announced (line ++ Octet.crlf) = none ↔ ¬ EndsInMark line := by
  rw [announced_crlf, Option.eq_none_iff_forall_not_mem]
  constructor
  · rintro hnone ⟨signed, digits, n, ⟨front, rfl⟩, hn⟩
    refine hnone n ?_
    rw [List.reverse_append]
    exact announced?_mark signed hn
  · intro hmark n hn
    obtain ⟨signed, digits, hprefix, hdigits⟩ := announced?_eq_some hn
    exact hmark ⟨signed, digits, n, List.reverse_prefix.mp hprefix, hdigits⟩

instance (bytes : Bytes) : Decidable (EndsInMark bytes) :=
  decidable_of_iff (¬ announced (bytes ++ Octet.crlf) = none) (by rw [announced_eq_none, not_not])

/-- Whether an announcement may be under way after one byte more. -/
def underWay (pending : Bool) (b : UInt8) : Bool :=
  b == Octet.openBrace || pending && (Octet.isDigit b || b == Octet.plus || b == Octet.closeBrace)

/-- Whether an announcement may be under way at the end of the bytes. -/
def pending (bytes : Bytes) : Bool := bytes.foldl underWay false

theorem pending_mark (hdigits : ∀ b ∈ digits, Octet.isDigit b = true) (front : Bytes) (signed : Bool) :
    pending (front ++ mark signed digits) = true := by
  have hkeep : ∀ bytes : Bytes,
      (∀ b ∈ bytes, (Octet.isDigit b || b == Octet.plus || b == Octet.closeBrace) = true) →
        bytes.foldl underWay true = true := by
    intro bytes h
    induction bytes with
    | nil => rfl
    | cons b bytes ih =>
      have hb : underWay true b = true := by
        rw [underWay, h b (List.mem_cons_self ..), Bool.true_and, Bool.or_true]
      rw [List.foldl_cons, hb]
      exact ih fun b hb => h b (List.mem_cons_of_mem _ hb)
  have hopen : underWay (pending front) Octet.openBrace = true := rfl
  rw [pending, List.foldl_append, mark, List.foldl_cons]
  show List.foldl underWay (underWay (pending front) Octet.openBrace) _ = true
  rw [hopen]
  refine hkeep _ fun b hb => ?_
  simp only [List.mem_append, List.mem_singleton] at hb
  rcases hb with (hdigit | hplus) | rfl
  · rw [hdigits b hdigit]
    rfl
  · cases signed
    · cases hplus
    · obtain rfl := List.mem_singleton.mp hplus
      rfl
  · rfl

/-- Where no announcement is under way, none has been made. -/
theorem EndsInMark.pending (h : EndsInMark bytes) : pending bytes = true := by
  obtain ⟨signed, digits, n, ⟨front, rfl⟩, hn⟩ := h
  exact pending_mark (number?_digits hn).2 front signed

theorem pending_plain (hline : pending line = false) (h : Octet.openBrace ∉ bytes) :
    pending (line ++ bytes) = false := by
  induction bytes generalizing line with
  | nil => rwa [List.append_nil]
  | cons b bytes ih =>
    obtain ⟨hb, hrest⟩ := not_or.mp (mt List.mem_cons.mpr h)
    have hnext : pending (line ++ [b]) = false := by
      rw [pending, List.foldl_append, List.foldl_cons, List.foldl_nil]
      show underWay (pending line) b = false
      rw [hline, underWay, beq_eq_false_iff_ne.mpr (Ne.symm hb)]
      rfl
    rw [List.append_cons]
    exact ih hnext hrest

/-- After a byte that has no place in an announcement none is under way. -/
theorem pending_stop (h : ∀ pending, underWay pending b = false) : pending (line ++ [b]) = false := by
  rw [pending, List.foldl_append]
  exact h _

/-- A text after a space ends like an announcement exactly if the whole line does. -/
theorem endsInMark_after_space {text : Bytes} :
    EndsInMark (line ++ Octet.space :: text) ↔ EndsInMark text := by
  constructor
  · rintro ⟨signed, digits, n, hsuffix, hn⟩
    have hspace : Octet.space ∉ mark signed digits := by
      have hdigits : Octet.space ∉ digits := fun hmem => absurd ((number?_digits hn).2 _ hmem) (by decide)
      cases signed <;> simp only [mark, List.mem_append, List.mem_cons, hdigits] <;> decide
    refine ⟨signed, digits, n, ?_, hn⟩
    rcases List.suffix_or_suffix_of_suffix hsuffix (List.suffix_append line _) with hmark | htext
    · rcases List.suffix_cons_iff.mp hmark with heq | hmark
      · exact absurd (heq ▸ List.mem_cons_self ..) hspace
      · exact hmark
    · exact absurd (htext.subset (List.mem_cons_self ..)) hspace
  · rintro ⟨signed, digits, n, hsuffix, hn⟩
    refine ⟨signed, digits, n, hsuffix.trans ?_, hn⟩
    rw [List.append_cons]
    exact List.suffix_append _ _

end Frame

/-! ### Pieces that do not end like one -/

namespace Piece
open Mailroom.Frame
variable {unasked : Bool} {bytes line : Bytes} {pieces : List Piece} {s t : String}

/-- A piece that a frame can hold, after which no announcement is under way if none was before it. -/
structure Calm (piece : Piece) : Prop where
  fits : piece.Fits
  calm : ∀ line, pending line = false → pending (openLine line [piece]) = false

theorem calm_plain (hline : Octet.lf ∉ bytes) (hopen : Octet.openBrace ∉ bytes) : (plain bytes).Calm :=
  ⟨hline, fun _ h => pending_plain h hopen⟩

theorem calm_counted (h : bytes.length ≤ maxLiteral) : (counted bytes).Calm := ⟨h, fun _ _ => rfl⟩

theorem calm_stop {b : UInt8} (hline : Octet.lf ∉ bytes ++ [b])
    (h : ∀ pending, underWay pending b = false) : (plain (bytes ++ [b])).Calm := by
  refine ⟨hline, fun line _ => ?_⟩
  show pending (line ++ (bytes ++ [b])) = false
  rw [← List.append_assoc]
  exact pending_stop h

/-- Whatever stands between quotation marks, the closing one ends it. -/
theorem calm_quoted (h : Octet.lf ∉ bytes) : (quoted bytes).Calm := by
  have hbytes : Octet.lf ∉ bytes.flatMap escape := by
    intro hmem
    obtain ⟨b, hb, hlf⟩ := List.mem_flatMap.mp hmem
    unfold escape at hlf
    split at hlf
    · simp only [List.mem_cons, List.not_mem_nil, or_false] at hlf
      rcases hlf with hlf | rfl
      · exact absurd hlf (by decide)
      · exact h hb
    · obtain rfl := List.mem_singleton.mp hlf
      exact h hb
  have hquote : Octet.lf ≠ Octet.quote := by decide
  refine calm_stop (b := Octet.quote) ?_ fun pending => by cases pending <;> rfl
  simp [hbytes, hquote]

theorem pending_openLine (h : ∀ piece ∈ pieces, piece.Calm) (hline : pending line = false) :
    pending (openLine line pieces) = false := by
  induction pieces generalizing line with
  | nil => exact hline
  | cons piece pieces ih =>
    have hpiece := (h piece (List.mem_cons_self ..)).calm line hline
    rw [← List.singleton_append, openLine_append]
    exact ih (fun piece hp => h piece (List.mem_cons_of_mem _ hp)) hpiece

/-- Calm pieces leave no announcement at the end of their last line. -/
theorem announced_of_calm (h : ∀ piece ∈ pieces, piece.Calm) :
    announced (openLine [] pieces ++ Octet.crlf) = none := by
  rw [announced_eq_none]
  intro hends
  exact absurd (hends.pending.symm.trans (pending_openLine h rfl)) (by decide)

/-- Calm pieces and a line break after them are one frame. -/
theorem whole_of_calm (h : ∀ piece ∈ pieces, piece.Calm) : Whole (wireAll unasked pieces ++ Octet.crlf) :=
  (whole_iff fun piece hp => (h piece hp).fits).mpr (announced_of_calm h)

/-! ### Texts without an opening brace -/

/-- A text that stays on its line and has no opening brace. -/
def Unmarked (s : String) : Prop := ∀ c ∈ s.toList, c ≠ '\n' ∧ c ≠ '\x7b'

instance (s : String) : Decidable (Unmarked s) := List.decidableBAll _ s.toList

theorem unmarked_append : Unmarked (s ++ t) ↔ Unmarked s ∧ Unmarked t := by
  simp only [Unmarked, String.toList_append, List.forall_mem_append]

theorem mem_of_mem_intersperse {α : Type} {separator part : α} {parts : List α}
    (h : part ∈ parts.intersperse separator) : part ∈ parts ∨ part = separator := by
  induction parts with
  | nil => cases h
  | cons first rest ih =>
    rcases rest with _ | ⟨second, rest⟩
    · exact .inl h
    · rw [List.intersperse_cons_cons, List.mem_cons, List.mem_cons] at h
      rcases h with rfl | rfl | hrest
      · exact .inl (List.mem_cons_self ..)
      · exact .inr rfl
      · exact (ih hrest).imp_left (List.mem_cons_of_mem _)

theorem unmarked_intercalate {words : List String} (hs : Unmarked s) (h : ∀ t ∈ words, Unmarked t) :
    Unmarked (s.intercalate words) := by
  intro c hc
  rw [String.toList_intercalate, List.intercalate] at hc
  obtain ⟨part, hpart, hc⟩ := List.mem_flatten.mp hc
  rcases mem_of_mem_intersperse hpart with hword | rfl
  · obtain ⟨t, ht, rfl⟩ := List.mem_map.mp hword
    exact h t ht c hc
  · exact hs c hc

theorem calm_text (h : Unmarked s) : (text s).Calm :=
  calm_plain (fun hmem => (h _ (Octet.char_mem hmem (by decide))).1 rfl)
    fun hmem => (h _ (Octet.char_mem hmem (by decide))).2 rfl

end Piece

end Mailroom
