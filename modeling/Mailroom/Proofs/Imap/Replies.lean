import Mailroom.Imap.Response
import Mailroom.Proofs.Imap.Marks

/-! Responses as a server writes them, and the frames as which they are received.

A server writes data, in which an opening brace stands between quotation marks or before the length of
a string, and conditions whose text is for people and may be anything that stays on one line. The
receiver does not tell the two apart: it looks for an announcement at the end of every line.
`received_iff` says that the responses are received one by one, whatever they are and however they
arrive, exactly if none of these texts ends like an announcement. -/
namespace Mailroom

/-! ### Responses as they are written -/

/-- Bytes that stay on one line. -/
structure OneLine where
  bytes : Bytes
  inLine : ∀ b ∈ bytes, Cursor.inLine b = true

/-- Bare words and numbers, brackets around them, and spaces between. -/
structure Words where
  bytes : Bytes
  plain : ∀ b ∈ bytes, Cursor.isAtomByte b = true ∨
    b ∈ [Octet.space, Octet.openParen, Octet.closeParen, Octet.openBracket, Octet.closeBracket]

/-- A piece of data. -/
inductive Datum
  | words (run : Words)
  | quoted (text : OneLine)
  | counted (bytes : Bytes) (short : bytes.length ≤ Frame.maxLiteral)

/-- The piece as it is written. -/
def Datum.piece : Datum → Piece
  | words run => .plain run.bytes
  | quoted text => .quoted text.bytes
  | counted bytes _ => .counted bytes

/-- The remark in brackets that may come before the text of a condition: data, or free text up to the
closing bracket. -/
inductive Remark
  | data (members : List Datum)
  | free (text : OneLine) (unclosed : Octet.closeBracket ∉ text.bytes)

/-- The remark as it is written, in its brackets. -/
def Remark.pieces : Remark → List Piece
  | data members => .text "[" :: members.map Datum.piece ++ [.text "]"]
  | free text _ => [.plain (Octet.openBracket :: text.bytes ++ [Octet.closeBracket])]

/-- How something went, and what is said about it. -/
structure Verdict where
  condition : Condition
  remark : Option Remark := none
  text : Option OneLine := none

/-- The verdict as it is written, up to its text. -/
def Verdict.front (v : Verdict) : List Piece :=
  .text v.condition.text :: match v.remark with
    | none => []
    | some remark => .text " " :: remark.pieces

/-- What a server may write. -/
inductive Reply
  | completion (tag : Words) (verdict : Verdict)
  | condition (verdict : Verdict)
  | continuation (text : Option OneLine)
  | data (members : List Datum)

namespace Reply

/-- The reply as it is written, up to the text for people. -/
def front : Reply → List Piece
  | completion tag verdict => .plain tag.bytes :: .text " " :: verdict.front
  | condition verdict => .text "* " :: verdict.front
  | continuation _ => [.text "+"]
  | data members => .text "* " :: members.map Datum.piece

/-- The text for people. -/
def text? : Reply → Option OneLine
  | completion _ verdict | condition verdict => verdict.text
  | continuation text => text
  | data _ => none

/-- The reply as it is written, up to its line break. -/
def pieces (r : Reply) : List Piece :=
  r.front ++ match r.text? with
    | none => []
    | some text => [.plain (Octet.space :: text.bytes)]

/-- The reply as it goes over the wire. -/
def wire (r : Reply) : Bytes := Piece.wireAll false r.pieces ++ Octet.crlf

/-- The lines of the reply outside strings, each with its line break. -/
def lines (r : Reply) : List Bytes := Piece.linesAll false [] r.pieces

end Reply

/-! ### The lines of a response -/

section
open Mailroom.Frame Piece

namespace OneLine

theorem lf_notMem (text : OneLine) : Octet.lf ∉ text.bytes := fun hmem =>
  absurd (text.inLine _ hmem) (by decide)

end OneLine

theorem Words.calm (words : Words) : (Piece.plain words.bytes).Calm := by
  have hplain : ∀ b ∈ words.bytes, b ≠ Octet.lf ∧ b ≠ Octet.openBrace := by
    intro b hb
    rcases words.plain b hb with hatom | hmem
    · constructor <;> rintro rfl <;> exact absurd hatom (by decide)
    · constructor <;> rintro rfl <;> exact absurd hmem (by decide)
  exact calm_plain (fun hmem => (hplain _ hmem).1 rfl) fun hmem => (hplain _ hmem).2 rfl

theorem Datum.calm (datum : Datum) : datum.piece.Calm := by
  cases datum with
  | words run => exact run.calm
  | quoted text => exact calm_quoted text.lf_notMem
  | counted bytes short => exact calm_counted short

theorem Remark.calm (remark : Remark) : ∀ piece ∈ remark.pieces, piece.Calm := by
  cases remark with
  | data members =>
    have hopen : (Piece.text "[").Calm := calm_plain (by decide) (by decide)
    have hclose : (Piece.text "]").Calm := calm_plain (by decide) (by decide)
    exact List.forall_mem_cons.mpr ⟨hopen, List.forall_mem_append.mpr
      ⟨List.forall_mem_map.mpr fun datum _ => datum.calm, List.forall_mem_singleton.mpr hclose⟩⟩
  | free text unclosed =>
    simp only [Remark.pieces, List.forall_mem_singleton]
    have hbrackets : Octet.lf ≠ Octet.openBracket ∧ Octet.lf ≠ Octet.closeBracket := by decide
    refine calm_stop (b := Octet.closeBracket) ?_ fun pending => by cases pending <;> rfl
    simp [text.lf_notMem, hbrackets]

theorem Verdict.calm (v : Verdict) : ∀ piece ∈ v.front, piece.Calm := by
  obtain ⟨condition, remark, text⟩ := v
  have hcondition : (Piece.text condition.text).Calm := by
    cases condition <;> exact calm_plain (by decide) (by decide)
  cases remark with
  | none => exact List.forall_mem_singleton.mpr hcondition
  | some remark =>
    exact List.forall_mem_cons.mpr ⟨hcondition,
      List.forall_mem_cons.mpr ⟨calm_plain (by decide) (by decide), remark.calm⟩⟩

namespace Reply

theorem calm (r : Reply) : ∀ piece ∈ r.front, piece.Calm := by
  have hspace : (Piece.text " ").Calm := calm_plain (by decide) (by decide)
  have hstar : (Piece.text "* ").Calm := calm_plain (by decide) (by decide)
  have hplus : (Piece.text "+").Calm := calm_plain (by decide) (by decide)
  cases r with
  | completion tag verdict =>
    exact List.forall_mem_cons.mpr ⟨tag.calm, List.forall_mem_cons.mpr ⟨hspace, verdict.calm⟩⟩
  | condition verdict => exact List.forall_mem_cons.mpr ⟨hstar, verdict.calm⟩
  | continuation text => exact List.forall_mem_singleton.mpr hplus
  | data members =>
    refine List.forall_mem_cons.mpr ⟨hstar, ?_⟩
    rw [List.forall_mem_map]
    exact fun datum _ => datum.calm

theorem fits (r : Reply) : ∀ piece ∈ r.pieces, piece.Fits := by
  refine List.forall_mem_append.mpr ⟨fun piece hp => (r.calm piece hp).fits, ?_⟩
  rcases r.text? with _ | text
  · exact List.forall_mem_nil _
  · refine List.forall_mem_singleton.mpr ?_
    have hspace : Octet.lf ≠ Octet.space := by decide
    show Octet.lf ∉ Octet.space :: text.bytes
    simp [text.lf_notMem, hspace]

/-- The last line ends like an announcement exactly if the text for people does. -/
theorem endsInMark_iff (r : Reply) :
    EndsInMark (openLine [] r.pieces) ↔ ∃ text ∈ r.text?, EndsInMark text.bytes := by
  rw [pieces, openLine_append]
  rcases r.text? with _ | text
  · have hcalm : pending (openLine [] r.front) = false := pending_openLine r.calm rfl
    refine iff_of_false (fun hends => ?_) (by simp)
    exact absurd (hends.pending.symm.trans hcalm) (by decide)
  · simp only [Option.mem_some_iff, exists_eq_left']
    exact endsInMark_after_space

/-- A reply is one frame exactly if its text does not end like an announcement. -/
theorem whole_wire_iff (r : Reply) : Whole r.wire ↔ ∀ text ∈ r.text?, ¬ EndsInMark text.bytes := by
  rw [wire, whole_iff r.fits, announced_eq_none, endsInMark_iff]
  simp

end Reply

end

/-! ### Several frames on one stream -/

namespace Frame

theorem Intake.mem_answers {error : FrameError} {frames : List Bytes} {frame : Bytes} {n : Nat}
    (h : frame ∈ frames) (hn : frames.length ≤ n) : .ok frame ∈ answers error frames n := by
  induction frames generalizing n with
  | nil => cases h
  | cons first frames ih =>
    obtain ⟨n, rfl⟩ := Nat.exists_eq_add_one_of_ne_zero (Nat.ne_zero_of_lt hn)
    rw [answers]
    rcases List.mem_cons.mp h with rfl | hrest
    · exact List.mem_cons_self ..
    · exact List.mem_cons_of_mem _ (ih hrest (Nat.le_of_succ_le_succ hn))

/-- The lines of a stream of replies are those of each. -/
theorem lines_replies {replies : List Reply} (h : ∀ r ∈ replies, Whole r.wire) :
    lines (replies.flatMap Reply.wire) = replies.flatMap Reply.lines ++ [[]] := by
  induction replies with
  | nil => rfl
  | cons r replies ih =>
    have hlast := (whole_iff r.fits).mp (h r (List.mem_cons_self ..))
    rw [List.flatMap_cons, Reply.wire, lines_wire r.fits hlast,
      ih fun r hr => h r (List.mem_cons_of_mem _ hr), List.flatMap_cons, List.append_assoc]
    rfl

/-- Replies whose lines are short enough are received one by one, however they arrive, exactly if none
of them has a text that ends like an announcement. -/
theorem received_iff {replies : List Reply}
    (hlines : ∀ r ∈ replies, ∀ line ∈ r.lines, line.length ≤ maxLine)
    {arrivals : List Bytes} (hne : [] ∉ arrivals)
    (harrivals : arrivals.flatten = replies.flatMap Reply.wire) :
    (∀ n, (Intake.calls n ⟨[], arrivals, hne⟩).1 = Intake.answers .closed (replies.map Reply.wire) n) ↔
      ∀ r ∈ replies, ∀ text ∈ r.text?, ¬ EndsInMark text.bytes := by
  have hwhole : (∀ r ∈ replies, Whole r.wire) ↔ ∀ r ∈ replies, ∀ text ∈ r.text?, ¬ EndsInMark text.bytes :=
    forall₂_congr fun r _ => r.whole_wire_iff
  rw [← hwhole]
  constructor
  · intro hcalls r hr
    have hmem : .ok r.wire ∈ Intake.answers .closed (replies.map Reply.wire) replies.length :=
      Intake.mem_answers (List.mem_map_of_mem hr) (by rw [List.length_map])
    rw [← hcalls] at hmem
    exact Intake.calls_whole _ _ hmem
  · intro hwhole n
    have hshort : ∀ line ∈ lines (replies.flatMap Reply.wire), line.length ≤ maxLine := by
      rw [lines_replies hwhole, List.forall_mem_append, List.forall_mem_flatMap]
      exact ⟨hlines, by decide⟩
    have hframes : ∀ frame ∈ replies.map Reply.wire, Whole frame := List.forall_mem_map.mpr hwhole
    exact calls_of_whole hframes hshort hne harrivals n

/-- A text that speaks of a length without ending in it, a string that holds a line break, and a read
that ends within its announcement. -/
theorem received_iff_mentioned_length :
    let replies : List Reply :=
      [.condition ⟨.ok, none, some ⟨Octet.ofText "see \x7b5\x7d lines", by decide⟩⟩,
        .data [.words ⟨Octet.ofText "1 FETCH (BODY[] ", by decide⟩,
          .counted (Octet.ofText "a\r\nb") (by decide), .words ⟨Octet.ofText ")", by decide⟩],
        .completion ⟨Octet.ofText "A1", by decide⟩
          ⟨.ok, some (.data [.words ⟨Octet.ofText "READ-ONLY", by decide⟩]),
            some ⟨Octet.ofText "done", by decide⟩⟩]
    let arrivals := [Octet.ofText "* OK see \x7b5\x7d lines\r\n* 1 FETCH (BODY[] \x7b4\x7d\r",
      Octet.ofText "\na\r\nb)\r\nA1 OK [READ-ONLY] done\r\n"]
    (∀ r ∈ replies, ∀ line ∈ r.lines, line.length ≤ maxLine) ∧
      arrivals.flatten = replies.flatMap Reply.wire ∧
      (Intake.calls 4 ⟨[], arrivals, by decide⟩).1 =
        [.ok (Octet.ofText "* OK see \x7b5\x7d lines\r\n"),
          .ok (Octet.ofText "* 1 FETCH (BODY[] \x7b4\x7d\r\na\r\nb)\r\n"),
          .ok (Octet.ofText "A1 OK [READ-ONLY] done\r\n"), .error .closed] := by
  intro replies arrivals
  have hlines : ∀ r ∈ replies, ∀ line ∈ r.lines, line.length ≤ maxLine := by decide +kernel
  have harrivals : arrivals.flatten = replies.flatMap Reply.wire := by decide +kernel
  have htexts : ∀ r ∈ replies, ∀ text ∈ r.text?, ¬ EndsInMark text.bytes := by
    simp only [replies, List.forall_mem_cons, Reply.text?,
      Option.mem_some_iff, forall_eq', Option.not_mem_none, false_imp_iff, implies_true, true_and]
    decide +kernel
  refine ⟨hlines, harrivals, ?_⟩
  rw [(received_iff hlines (by decide) harrivals).mpr htexts 4]
  decide +kernel

/-- A text that ends in a length takes in five bytes of what comes next and the rest of that line. -/
example : (Intake.calls 3 ⟨[], [Octet.ofText "* OK see \x7b5\x7d\r\n* 1 EXISTS\r\nA1 OK done\r\n"],
      by decide⟩).1 =
    [.ok (Octet.ofText "* OK see \x7b5\x7d\r\n* 1 EXISTS\r\n"), .ok (Octet.ofText "A1 OK done\r\n"),
      .error .closed] := by
  rw [Intake.calls_results]
  decide +kernel

end Frame

end Mailroom
