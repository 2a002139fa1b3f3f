import Mailroom.Imap.Command
import Mailroom.Proofs.Imap.Arrival
import Mailroom.Proofs.Imap.Strings
import Mailroom.Proofs.Text.Bytes

/-! Lines written in pieces.

Whoever writes a command or a response puts it together from pieces that stay on the line and strings
of announced length, and ends it with a line break. Here such a writing is followed by the cutter:
`cut_wire` says where it leaves the cutter, `whole_iff` when it is one frame, no less and no more, and
`lines_wire` which its lines are outside strings. -/
namespace Mailroom

namespace Piece

/-- A piece as it goes over the wire. With `unasked` a string need not be asked for. -/
def wire (unasked : Bool) : Piece → Bytes
  | plain bytes => bytes
  | counted bytes => Request.announcement unasked bytes.length ++ bytes

/-- Several pieces as they go over the wire. -/
def wireAll (unasked : Bool) (pieces : List Piece) : Bytes := pieces.flatMap (wire unasked)

/-- A piece that a frame can hold: one that stays on its line, or a string that is not too long. -/
def Fits : Piece → Prop
  | plain bytes => Octet.lf ∉ bytes
  | counted bytes => bytes.length ≤ Frame.maxLiteral

/-- The line that is open after the pieces, when `line` was open before them. -/
def openLine (line : Bytes) : List Piece → Bytes
  | [] => line
  | plain bytes :: rest => openLine (line ++ bytes) rest
  | counted _ :: rest => openLine [] rest

/-- The lines outside strings, each with its line break, when `line` was open before the pieces and a
line break comes after them. -/
def linesAll (unasked : Bool) (line : Bytes) : List Piece → List Bytes
  | [] => [line ++ Octet.crlf]
  | plain bytes :: rest => linesAll unasked (line ++ bytes) rest
  | counted bytes :: rest =>
    (line ++ Request.announcement unasked bytes.length) :: linesAll unasked [] rest

section
variable {unasked : Bool} {pieces more : List Piece} {piece : Piece} {line : Bytes}

theorem wireAll_cons : wireAll unasked (piece :: pieces) = piece.wire unasked ++ wireAll unasked pieces :=
  rfl

theorem wireAll_append :
    wireAll unasked (pieces ++ more) = wireAll unasked pieces ++ wireAll unasked more :=
  List.flatMap_append

theorem openLine_append : openLine line (pieces ++ more) = openLine (openLine line pieces) more := by
  induction pieces generalizing line with
  | nil => rfl
  | cons piece pieces ih =>
    cases piece with
    | plain bytes => exact ih
    | counted bytes => exact ih

/-- The bytes of the pieces and a line break after them, in numbers of lines and strings. -/
theorem length_wireAll_le (hfits : ∀ piece ∈ pieces, piece.Fits)
    (hlines : ∀ l ∈ linesAll unasked line pieces, l.length ≤ Frame.maxLine) :
    line.length + (wireAll unasked pieces).length + 2 ≤
      (pieces.length + 1) * (Frame.maxLine + Frame.maxLiteral) := by
  induction pieces generalizing line with
  | nil =>
    have hline := hlines _ (List.mem_singleton_self _)
    rw [List.length_append, List.length_cons, List.length_singleton] at hline
    have hnone : (wireAll unasked []).length = 0 := rfl
    rw [hnone, List.length_nil]
    omega
  | cons piece pieces ih =>
    have hrest : ∀ piece ∈ pieces, piece.Fits := fun p hp => hfits p (List.mem_cons_of_mem _ hp)
    rw [wireAll_cons, List.length_append, List.length_cons, Nat.succ_mul (pieces.length + 1)]
    cases piece with
    | plain bytes =>
      have hle := ih hrest hlines
      rw [List.length_append] at hle
      rw [wire]
      omega
    | counted bytes =>
      have hfit : bytes.length ≤ Frame.maxLiteral := hfits _ (List.mem_cons_self ..)
      have hline := hlines _ (List.mem_cons_self ..)
      have hle := ih hrest fun l hl => hlines l (List.mem_cons_of_mem _ hl)
      rw [List.length_append] at hline
      rw [List.length_nil] at hle
      rw [wire, List.length_append]
      omega

end

end Piece

namespace Frame
open Piece

variable {unasked : Bool} {pieces : List Piece} {held line bytes rest : Bytes} {n : Nat}

/-! ### The cutter -/

theorem announcement_eq (unasked : Bool) (n : Nat) :
    Request.announcement unasked n = mark unasked (Octet.ofDigits n) ++ Octet.crlf := by
  simp [Request.announcement, mark, Octet.ofText_decimal]

theorem lf_notMem_mark (unasked : Bool) (n : Nat) : Octet.lf ∉ mark unasked (Octet.ofDigits n) := by
  have hdigits : Octet.lf ∉ Octet.ofDigits n := fun hmem =>
    absurd (Octet.ofDigits_digit hmem) (by decide)
  cases unasked <;> simp only [mark, List.mem_append, List.mem_cons, hdigits] <;> decide

/-- A string that a frame can hold is one whose length can be announced. -/
theorem number?_length (h : n ≤ maxLiteral) :
    Octet.number? UInt64.size (Octet.ofDigits n) = some n :=
  Octet.number?_ofDigits (Nat.lt_of_le_of_lt h (by decide))

theorem cut_stay (h : Octet.lf ∉ bytes) :
    (inLine held line).cut bytes = (.more (inLine held (line ++ bytes)), []) := by
  rw [cut_plain rfl h]
  simp [inLine]

/-- The end of a line that is open. -/
theorem cut_crlf : (inLine held line).cut Octet.crlf =
    match announced (line ++ Octet.crlf) with
    | none => (.frame (held ++ line ++ Octet.crlf), [])
    | some length =>
      if maxLiteral < length then (.failure (.literalTooLong length), [])
      else (.more (inString (held ++ line ++ Octet.crlf) length), []) := by
  have hcr : (inLine held line).feed Octet.cr = .more (inLine held (line ++ [Octet.cr])) :=
    feed_inLine fun hend => absurd hend.1 (by decide)
  have hlast : (line ++ [Octet.cr]).getLast? = some Octet.cr := by simp
  have hline : line ++ [Octet.cr] ++ [Octet.lf] = line ++ Octet.crlf := List.append_assoc ..
  rw [Cutter.cut, hcr]
  dsimp only
  rw [Cutter.cut, feed_break hlast, hline, endOfLine_inLine, ← List.append_assoc]
  rcases announced (line ++ Octet.crlf) with _ | length
  · rfl
  · by_cases hlong : maxLiteral < length <;> simp only [hlong, if_true, if_false, Cutter.cut]

theorem announced_announcement (unasked : Bool) (line : Bytes) (h : n ≤ maxLiteral) :
    announced (line ++ Request.announcement unasked n) = some n := by
  have hback : (line ++ Request.announcement unasked n).reverse.drop 2 =
      (mark unasked (Octet.ofDigits n)).reverse ++ line.reverse := by
    rw [announcement_eq]
    simp
  rw [announced, hback]
  exact announced?_mark unasked (number?_length h)

theorem cut_counted (h : bytes.length ≤ maxLiteral) :
    (inLine held line).cut ((Piece.counted bytes).wire unasked) =
      (.more (inLine (held ++ line ++ (Piece.counted bytes).wire unasked) []), []) := by
  have hannounced := announced_announcement unasked line h
  rw [announcement_eq, ← List.append_assoc] at hannounced
  have hend : (inLine held line).cut (mark unasked (Octet.ofDigits bytes.length) ++ Octet.crlf) = _ :=
    (cut_append_more (cut_stay (lf_notMem_mark _ _))).trans cut_crlf
  rw [hannounced] at hend
  simp only [if_neg (Nat.not_lt.mpr h)] at hend
  rw [wire, announcement_eq, cut_append_more hend, cut_string (Nat.le_refl _), Nat.sub_self]
  simp [inString, inLine]

/-- The cutter after pieces: within the line that they leave open. -/
theorem cut_wire (held line : Bytes) (unasked : Bool) (h : ∀ piece ∈ pieces, piece.Fits) :
    ∃ before, (inLine held line).cut (wireAll unasked pieces) =
        (.more (inLine before (openLine line pieces)), []) ∧
      before ++ openLine line pieces = held ++ line ++ wireAll unasked pieces := by
  induction pieces generalizing held line with
  | nil => exact ⟨held, rfl, (List.append_nil _).symm⟩
  | cons piece pieces ih =>
    have hrest : ∀ piece ∈ pieces, piece.Fits := fun p hp => h p (List.mem_cons_of_mem _ hp)
    have hpiece := h piece (List.mem_cons_self ..)
    rw [wireAll_cons]
    cases piece with
    | plain bytes =>
      obtain ⟨before, hcut, hbefore⟩ := @ih held (line ++ bytes) hrest
      refine ⟨before, ?_, ?_⟩
      · rw [wire, cut_append_more (cut_stay hpiece), hcut, openLine]
      · rw [openLine, hbefore, wire]
        simp only [List.append_assoc]
    | counted bytes =>
      obtain ⟨before, hcut, hbefore⟩ :=
        @ih (held ++ line ++ (Piece.counted bytes).wire unasked) [] hrest
      refine ⟨before, ?_, ?_⟩
      · rw [cut_append_more (cut_counted hpiece), hcut, openLine]
      · rw [openLine, hbefore]
        simp only [List.append_assoc, List.nil_append]

/-- Pieces and a line break after them are one frame unless the last line announces a string. -/
theorem whole_iff (h : ∀ piece ∈ pieces, piece.Fits) :
    Whole (wireAll unasked pieces ++ Octet.crlf) ↔ announced (openLine [] pieces ++ Octet.crlf) = none := by
  obtain ⟨before, hcut, hbefore⟩ := cut_wire [] [] unasked h
  have hend : ({} : Cutter).cut (wireAll unasked pieces ++ Octet.crlf) = _ :=
    (cut_append_more hcut).trans cut_crlf
  rw [hbefore] at hend
  rw [Whole, hend]
  rcases announced (openLine [] pieces ++ Octet.crlf) with _ | length
  · simp
  · by_cases hlong : maxLiteral < length <;> simp [hlong]

/-! ### Lines outside strings -/

theorem linesFrom_stay (h : Octet.lf ∉ bytes) :
    linesFrom 0 line.reverse (bytes ++ rest) = linesFrom 0 (line ++ bytes).reverse rest := by
  induction bytes generalizing line with
  | nil => rw [List.append_nil, List.nil_append]
  | cons b bytes ih =>
    obtain ⟨hb, hbytes⟩ := not_or.mp (mt List.mem_cons.mpr h)
    have hline := @ih (line ++ [b]) hbytes
    rw [List.reverse_append, List.append_assoc] at hline
    rw [List.cons_append, linesFrom, if_neg fun hend => hb hend.1.symm]
    exact hline

theorem linesFrom_crlf :
    linesFrom 0 line.reverse (Octet.crlf ++ rest) =
      (line ++ Octet.crlf) :: linesFrom ((announced (line ++ Octet.crlf)).getD 0) [] rest := by
  have hback : (line ++ Octet.crlf).reverse.drop 2 = line.reverse := by simp
  rw [List.cons_append, linesFrom, if_neg fun hend => absurd hend.1 (by decide)]
  show linesFrom 0 (Octet.cr :: line.reverse) (Octet.lf :: rest) = _
  rw [linesFrom, if_pos ⟨rfl, rfl⟩, announced, hback]
  simp

theorem linesFrom_string (h : bytes.length = n) :
    linesFrom n line (bytes ++ rest) = linesFrom 0 line rest := by
  induction bytes generalizing n with
  | nil =>
    cases h
    rfl
  | cons b bytes ih =>
    cases h
    rw [List.cons_append, List.length_cons, linesFrom]
    exact ih rfl

/-- The lines of a stream that begins with pieces and a line break after them. -/
theorem linesFrom_wire (h : ∀ piece ∈ pieces, piece.Fits)
    (hlast : announced (openLine line pieces ++ Octet.crlf) = none) :
    linesFrom 0 line.reverse (wireAll unasked pieces ++ Octet.crlf ++ rest) =
      linesAll unasked line pieces ++ lines rest := by
  induction pieces generalizing line with
  | nil =>
    have hnone : announced (line ++ Octet.crlf) = none := hlast
    have hwire : wireAll unasked [] ++ Octet.crlf ++ rest = Octet.crlf ++ rest := rfl
    rw [hwire, linesFrom_crlf, hnone]
    rfl
  | cons piece pieces ih =>
    have hrest : ∀ piece ∈ pieces, piece.Fits := fun p hp => h p (List.mem_cons_of_mem _ hp)
    have hpiece := h piece (List.mem_cons_self ..)
    cases piece with
    | plain bytes =>
      have hlines := @ih (line ++ bytes) hrest hlast
      rw [List.append_assoc] at hlines ⊢
      rw [wireAll_cons, wire, List.append_assoc, linesFrom_stay hpiece, hlines]
      rfl
    | counted bytes =>
      have hlines := @ih [] hrest hlast
      rw [List.append_assoc] at hlines
      have hannounced := announced_announcement unasked line hpiece
      rw [announcement_eq, ← List.append_assoc] at hannounced
      rw [List.append_assoc, wireAll_cons, wire, announcement_eq, List.append_assoc, List.append_assoc,
        List.append_assoc, linesFrom_stay (lf_notMem_mark _ _), linesFrom_crlf, hannounced,
        Option.getD_some, linesFrom_string rfl]
      show _ :: linesFrom 0 ([] : Bytes).reverse _ = _
      rw [hlines, linesAll, announcement_eq, List.append_assoc]
      rfl

theorem lines_wire (h : ∀ piece ∈ pieces, piece.Fits)
    (hlast : announced (openLine [] pieces ++ Octet.crlf) = none) :
    lines (wireAll unasked pieces ++ Octet.crlf ++ rest) = linesAll unasked [] pieces ++ lines rest := by
  show linesFrom 0 ([] : Bytes).reverse _ = _
  exact linesFrom_wire h hlast

/-! ### Several frames on one stream -/

/-- Whole frames are cut from a stream one by one. -/
theorem foldl_feed_whole {frames : List Bytes} (h : ∀ frame ∈ frames, Whole frame) (before : List Bytes) :
    frames.flatten.foldl Cutting.feed { frames := before } = { frames := frames.reverse ++ before } := by
  induction frames generalizing before with
  | nil => rfl
  | cons frame frames ih =>
    have hcut : ({} : Cutter).cut (frame ++ frames.flatten) = (.frame frame, [] ++ frames.flatten) :=
      cut_append_frame (h frame (List.mem_cons_self ..))
    rw [List.flatten_cons, Cutting.foldl_feed_frame rfl hcut, List.nil_append]
    rw [ih (fun f hf => h f (List.mem_cons_of_mem _ hf)), List.reverse_cons, List.append_assoc]
    rfl

/-- Whole frames without long lines are received one by one, however they arrive. -/
theorem calls_of_whole {frames : List Bytes} (h : ∀ frame ∈ frames, Whole frame)
    (hlines : ∀ line ∈ lines frames.flatten, line.length ≤ maxLine) {arrivals : List Bytes}
    (hne : [] ∉ arrivals) (harrivals : arrivals.flatten = frames.flatten) (n : Nat) :
    (Intake.calls n ⟨[], arrivals, hne⟩).1 = Intake.answers .closed frames n := by
  have hcutting : Intake.cutting ⟨[], arrivals, hne⟩ = frames.flatten.foldl Cutting.feed {} :=
    foldl_read_eq hlines harrivals
  rw [Intake.calls_results, hcutting, foldl_feed_whole h []]
  simp [Cutting.outcome]

end Frame

end Mailroom
