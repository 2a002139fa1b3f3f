import Mailroom.Imap.Cursor
import Mailroom.Proofs.Imap.Cutting

/-! The strings of announced length in a frame.

The cutter finds a string by looking back from the end of a line, a reader of the frame by reading
on from an opening brace. `Aligned` says that the cutter, where the reader stands, is not within a
string, and `Aligned.string` that an announcement which is read there is one that the cutter finds. -/
namespace Mailroom.Frame

/-- The length of the string that this byte announces by ending a line. -/
def Cutter.announces (c : Cutter) (b : UInt8) : Option Nat :=
  if c.due = 0 ∧ b = Octet.lf ∧ c.line.head? = some Octet.cr then announced? (c.line.drop 1) else none

/-- The strings that the cutter finds in bytes which begin at this position: where each of them begins
and how long it is. -/
def Cutter.strings (c : Cutter) (position : Nat) : Bytes → List (Nat × Nat)
  | [] => []
  | b :: rest =>
    match c.feed b with
    | .more next =>
      ((c.announces b).map fun length => (position + 1, length)).toList ++ next.strings (position + 1) rest
    | _ => []

/-- The strings of a frame. -/
def strings (frame : Bytes) : List (Nat × Nat) := ({} : Cutter).strings 0 frame

section
variable {c d : Cutter} {bytes rest line frame digits : Bytes} {position n : Nat}

theorem strings_append (h : c.cut bytes = (.more d, [])) :
    c.strings position (bytes ++ rest) =
      c.strings position bytes ++ d.strings (position + bytes.length) rest := by
  induction bytes generalizing c position with
  | nil =>
    cases h
    rfl
  | cons b bytes ih =>
    unfold Cutter.cut at h
    rw [List.cons_append, Cutter.strings, Cutter.strings]
    rcases hfeed : c.feed b with next | frame | error <;> rw [hfeed] at h
    · rw [List.length_cons, Nat.add_comm bytes.length, ← Nat.add_assoc]
      dsimp only
      rw [ih h, List.append_assoc]
    · cases h
    · cases h

theorem feed_plain {b : UInt8} (hdue : c.due = 0) (h : ¬ (b = Octet.lf ∧ c.line.head? = some Octet.cr)) :
    c.feed b = .more { c with line := b :: c.line, length := c.length + 1 } := by
  unfold Cutter.feed
  rw [if_neg (by omega), if_neg h]

/-- Without a line feed no line ends. -/
theorem cut_plain (hdue : c.due = 0) (h : Octet.lf ∉ bytes) :
    c.cut bytes =
      (.more { c with line := bytes.reverse ++ c.line, length := c.length + bytes.length }, []) := by
  induction bytes generalizing c with
  | nil => rfl
  | cons b bytes ih =>
    obtain ⟨hb, hrest⟩ := not_or.mp (mt List.mem_cons.mpr h)
    have hcut : ({ c with line := b :: c.line, length := c.length + 1 } : Cutter).cut bytes = _ :=
      ih hdue hrest
    rw [Cutter.cut, feed_plain hdue fun hend => hb hend.1.symm]
    dsimp only
    rw [hcut]
    simp [Nat.add_assoc, Nat.add_comm 1]

/-! ### The end of a line that announces a string -/

/-- How a string is announced, with or without the sign that it need not be asked for. -/
def mark (signed : Bool) (digits : Bytes) : Bytes :=
  Octet.openBrace :: (digits ++ (if signed then [Octet.plus] else []) ++ [Octet.closeBrace])

theorem number?_digits (h : Octet.number? UInt64.size digits = some n) :
    digits ≠ [] ∧ ∀ b ∈ digits, Octet.isDigit b = true := by
  unfold Octet.number? at h
  by_cases hbad : digits.isEmpty || !digits.all Octet.isDigit
  · rw [if_pos hbad] at h
    cases h
  · simpa using hbad

theorem announcedDigits_reverse (h : ∀ b ∈ digits, Octet.isDigit b = true) :
    announcedDigits (digits.reverse ++ Octet.openBrace :: line) = some digits := by
  have hback : ∀ b ∈ digits.reverse, Octet.isDigit b = true := fun b hb => h b (List.mem_reverse.mp hb)
  have hstop : ¬ Octet.isDigit Octet.openBrace = true := by decide
  rw [announcedDigits, List.dropWhile_append_of_pos hback, List.takeWhile_append_of_pos hback,
    List.dropWhile_cons_of_neg hstop, List.takeWhile_cons_of_neg hstop, List.append_nil,
    List.reverse_reverse]
  rfl

theorem announced?_unsigned (h : bytes.head? ≠ some Octet.plus) :
    announced? (Octet.closeBrace :: bytes) = (announcedDigits bytes).bind (Octet.number? UInt64.size) := by
  unfold announced?
  split
  next heq =>
    cases heq
    exact absurd rfl h
  next heq =>
    cases heq
    rfl
  next hother => exact absurd rfl (hother _)

/-- An announcement that a reader passes is one that is found by looking back from its end. -/
theorem announced?_mark (signed : Bool) (h : Octet.number? UInt64.size digits = some n) :
    announced? ((mark signed digits).reverse ++ line) = some n := by
  obtain ⟨hne, hall⟩ := number?_digits h
  have hnumber : (announcedDigits (digits.reverse ++ Octet.openBrace :: line)).bind
      (Octet.number? UInt64.size) = some n := by
    rw [announcedDigits_reverse hall]
    exact h
  cases signed with
  | true =>
    have hline : (mark true digits).reverse ++ line =
        Octet.closeBrace :: Octet.plus :: (digits.reverse ++ Octet.openBrace :: line) := by
      simp [mark]
    rw [hline]
    exact hnumber
  | false =>
    have hline : (mark false digits).reverse ++ line =
        Octet.closeBrace :: (digits.reverse ++ Octet.openBrace :: line) := by
      simp [mark]
    have hhead : (digits.reverse ++ Octet.openBrace :: line).head? ≠ some Octet.plus := by
      rcases hlast : digits.reverse with _ | ⟨d, rest⟩
      · exact absurd (List.reverse_eq_nil_iff.mp hlast) hne
      · rintro ⟨⟩
        have hplus : Octet.plus ∈ digits := List.mem_reverse.mp (hlast ▸ List.mem_cons_self ..)
        exact absurd (hall _ hplus) (by decide)
    rw [hline, announced?_unsigned hhead, hnumber]

/-- The line feed after an announcement and a carriage return. -/
theorem feed_mark {signed : Bool} (hdue : c.due = 0)
    (hline : c.line = Octet.cr :: ((mark signed digits).reverse ++ line))
    (hn : Octet.number? UInt64.size digits = some n) :
    c.announces Octet.lf = some n ∧ c.feed Octet.lf =
      if maxLiteral < n then .failure (.literalTooLong n)
      else .more (inString (c.held ++ [Octet.lf]) n) := by
  have hannounced : announced? (c.line.drop 1) = some n := by
    rw [hline]
    exact announced?_mark signed hn
  have hend : Octet.lf = Octet.lf ∧ c.line.head? = some Octet.cr := ⟨rfl, by rw [hline]; rfl⟩
  constructor
  · rw [Cutter.announces, if_pos ⟨hdue, hend⟩, hannounced]
  · unfold Cutter.feed
    rw [if_neg (by omega), if_pos hend, endOfLine, List.drop_succ_cons, hannounced]
    simp [inString, Cutter.held]

end

/-! ### Reader and cutter at one place -/

/-- Bytes that may be passed within a line without ending it. -/
def StaysInLine (bytes : Bytes) : Prop :=
  ∀ c : Cutter, c.due = 0 → ∃ d, c.cut bytes = (.more d, []) ∧ d.due = 0

theorem staysInLine_plain {bytes : Bytes} (h : Octet.lf ∉ bytes) : StaysInLine bytes :=
  fun _ hdue => ⟨_, cut_plain hdue h, hdue⟩

/-- A line feed ends no line after anything but a carriage return. -/
theorem staysInLine_escape (b : UInt8) : StaysInLine [Octet.backslash, b] := by
  intro c hdue
  have hback : c.feed Octet.backslash = _ := feed_plain hdue fun hend => absurd hend.1 (by decide)
  have hnext : ({ c with line := Octet.backslash :: c.line, length := c.length + 1 } : Cutter).feed b = _ :=
    feed_plain hdue fun hend => absurd (Option.some.inj hend.2) (by decide)
  refine ⟨{ c with line := b :: Octet.backslash :: c.line, length := c.length + 1 + 1 }, ?_, hdue⟩
  rw [Cutter.cut, hback]
  dsimp only
  rw [Cutter.cut, hnext]
  rfl

/-- The cutter, having passed what the reader has passed of the frame, is within a line. -/
def Aligned (frame : Bytes) (c : Cursor) : Prop :=
  ∃ passed k, frame = passed ++ c.rest ∧ c.position = passed.length ∧
    ({} : Cutter).cut passed = (.more k, []) ∧ k.due = 0

/-- The cutter finds a string of this length here, and these bytes of the frame are that string. -/
def HasString (frame : Bytes) (start : Nat) (bytes : Bytes) : Prop :=
  (start, bytes.length) ∈ strings frame ∧ bytes <+: frame.drop start

instance (frame : Bytes) (start : Nat) (bytes : Bytes) : Decidable (HasString frame start bytes) :=
  inferInstanceAs (Decidable ((start, bytes.length) ∈ strings frame ∧ bytes <+: frame.drop start))

namespace Aligned
variable {frame bytes rest digits : Bytes} {position n : Nat} {signed : Bool}

theorem start (frame : Bytes) : Aligned frame (Cursor.ofBytes frame) := ⟨[], {}, rfl, rfl, rfl, rfl⟩

theorem position_le {c : Cursor} (h : Aligned frame c) : c.position ≤ frame.length := by
  obtain ⟨passed, k, hframe, hposition, -, -⟩ := h
  rw [hframe, hposition, List.length_append]
  exact Nat.le_add_right ..

theorem pass (h : Aligned frame ⟨position, bytes ++ rest⟩) (hbytes : StaysInLine bytes) :
    Aligned frame ⟨position + bytes.length, rest⟩ := by
  obtain ⟨passed, k, hframe, hposition, hcut, hdue⟩ := h
  obtain ⟨d, hcut', hdue'⟩ := hbytes k hdue
  refine ⟨passed ++ bytes, d, ?_, ?_, ?_, hdue'⟩
  · rw [hframe, List.append_assoc]
  · rw [List.length_append, ← hposition]
  · rw [cut_append_more hcut, hcut']

/-- The cutter at the end of an announcement. -/
theorem cut_mark (hn : Octet.number? UInt64.size digits = some n)
    (h : Aligned frame ⟨position, mark signed digits ++ [Octet.cr] ++ rest⟩) :
    ∃ before l line, frame = before ++ rest ∧ position + (mark signed digits).length + 1 = before.length ∧
      ({} : Cutter).cut before = (.more l, []) ∧ l.due = 0 ∧
      l.line = Octet.cr :: ((mark signed digits).reverse ++ line) := by
  obtain ⟨passed, k, hframe, hposition, hcut, hdue⟩ := h
  have hplain : Octet.lf ∉ mark signed digits ++ [Octet.cr] := by
    have hdigits : Octet.lf ∉ digits := fun hmem => absurd ((number?_digits hn).2 _ hmem) (by decide)
    cases signed <;> simp only [mark, List.mem_append, List.mem_cons, hdigits] <;> decide
  refine ⟨passed ++ (mark signed digits ++ [Octet.cr]), _, k.line, ?_, ?_,
    (cut_append_more hcut).trans (cut_plain hdue hplain), hdue, ?_⟩
  · rw [hframe]
    exact (List.append_assoc ..).symm
  · rw [List.length_append, List.length_append, ← hposition, Nat.add_assoc]
    rfl
  · rw [List.reverse_append]
    rfl

/-- A string whose announcement is read where reader and cutter are aligned is one that the cutter
finds. All of it is in the frame, and they are aligned again behind it. -/
theorem string (hwhole : Whole frame) (hn : Octet.number? UInt64.size digits = some n)
    (h : Aligned frame ⟨position, mark signed digits ++ [Octet.cr] ++ Octet.lf :: rest⟩) :
    n ≤ rest.length ∧ HasString frame (position + (mark signed digits).length + 2) (rest.take n) ∧
      Aligned frame ⟨position + (mark signed digits).length + 2 + n, rest.drop n⟩ := by
  obtain ⟨before, l, line, rfl, hposition, hcut, hdue, hline⟩ := h.cut_mark hn
  obtain ⟨hannounces, hfeed⟩ := feed_mark hdue hline hn
  have hrest : l.cut (Octet.lf :: rest) = (.frame (before ++ Octet.lf :: rest), []) :=
    (cut_append_more hcut).symm.trans hwhole
  have hshort : ¬ maxLiteral < n := by
    intro hlong
    rw [Cutter.cut, hfeed, if_pos hlong] at hrest
    cases hrest
  rw [if_neg hshort] at hfeed
  rw [Cutter.cut, hfeed] at hrest
  dsimp only at hrest
  -- A frame that ended within the string would not be whole.
  have hn : n ≤ rest.length := by
    refine Nat.le_of_not_lt fun hlt => ?_
    rw [cut_string (Nat.le_of_lt hlt)] at hrest
    cases hrest
  have hstart : position + (mark signed digits).length + 2 = before.length + 1 := by omega
  refine ⟨hn, ⟨?_, ?_⟩, before ++ Octet.lf :: rest.take n,
    inString (l.held ++ [Octet.lf] ++ rest.take n) (n - (rest.take n).length), ?_, ?_, ?_, ?_⟩
  · rw [strings, strings_append hcut, Cutter.strings, hfeed, hannounces, hstart, List.length_take_of_le hn]
    simp
  · rw [hstart, List.drop_length_add_append]
    exact List.take_prefix n rest
  · simp
  · show position + (mark signed digits).length + 2 + n = _
    rw [List.length_append, List.length_cons, List.length_take_of_le hn]
    omega
  · rw [cut_append_more hcut, Cutter.cut, hfeed]
    dsimp only
    rw [cut_string (List.length_take_le ..)]
  · rw [List.length_take_of_le hn]
    exact Nat.sub_self n

end Aligned

end Mailroom.Frame
