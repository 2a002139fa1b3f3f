import Mailroom.Imap.Frame

/-! How a stream is cut, line by line.

The cutter goes byte by byte. Here it is followed from one line break to the next: `Cutter.cut` feeds
it bytes up to the end of the frame, `cut_open` and `cut_line` say what becomes of a line without and
with its break, and `cut_string` of a string of announced length. -/
namespace Mailroom.Frame

/-! ### Line breaks -/

/-- A line break begins at this place. -/
def BreaksAt (bytes : Bytes) (i : Nat) : Prop :=
  bytes[i]? = some Octet.cr ∧ bytes[i + 1]? = some Octet.lf

/-- Where the first line break begins. -/
def lineBreak? : Bytes → Option Nat
  | [] => none
  | b :: rest =>
    if b = Octet.cr ∧ rest.head? = some Octet.lf then some 0 else (lineBreak? rest).map (· + 1)

/-- The length announced at the end of a line, which is given with its line break. -/
def announced (line : Bytes) : Option Nat := announced? (line.reverse.drop 2)

section
variable {bytes more : Bytes} {i n : Nat}

theorem breaksAt_zero {b : UInt8} {rest : Bytes} :
    BreaksAt (b :: rest) 0 ↔ b = Octet.cr ∧ rest.head? = some Octet.lf := by
  simp [BreaksAt, List.head?_eq_getElem?]

theorem breaksAt_succ {b : UInt8} {rest : Bytes} : BreaksAt (b :: rest) (i + 1) ↔ BreaksAt rest i := by
  simp [BreaksAt]

theorem BreaksAt.lt_length (h : BreaksAt bytes i) : i + 1 < bytes.length :=
  (List.getElem?_eq_some_iff.mp h.2).1

/-- More bytes make no difference to a place that has two bytes already. -/
theorem breaksAt_append (h : i + 1 < bytes.length) : BreaksAt (bytes ++ more) i ↔ BreaksAt bytes i := by
  unfold BreaksAt
  rw [List.getElem?_append_left h, List.getElem?_append_left (by omega)]

theorem breaksAt_drop : BreaksAt (bytes.drop n) i ↔ BreaksAt bytes (n + i) := by
  unfold BreaksAt
  rw [List.getElem?_drop, List.getElem?_drop, Nat.add_assoc]

theorem breaksAt_take (h : i + 1 < n) : BreaksAt (bytes.take n) i ↔ BreaksAt bytes i := by
  unfold BreaksAt
  rw [List.getElem?_take, List.getElem?_take, if_pos (by omega), if_pos h]

theorem lineBreak?_eq_none : lineBreak? bytes = none ↔ ∀ i, ¬ BreaksAt bytes i := by
  induction bytes with
  | nil => simp [lineBreak?, BreaksAt]
  | cons b rest ih =>
    unfold lineBreak?
    by_cases h : b = Octet.cr ∧ rest.head? = some Octet.lf
    · rw [if_pos h]
      exact iff_of_false nofun fun hnone => hnone 0 (breaksAt_zero.mpr h)
    · rw [if_neg h, Option.map_eq_none_iff, ih]
      constructor
      · rintro hrest (_ | i)
        · exact mt breaksAt_zero.mp h
        · exact mt breaksAt_succ.mp (hrest i)
      · exact fun hnone i => mt breaksAt_succ.mpr (hnone (i + 1))

theorem lineBreak?_eq_some :
    lineBreak? bytes = some n ↔ BreaksAt bytes n ∧ ∀ i < n, ¬ BreaksAt bytes i := by
  induction bytes generalizing n with
  | nil => simp [lineBreak?, BreaksAt]
  | cons b rest ih =>
    unfold lineBreak?
    by_cases h : b = Octet.cr ∧ rest.head? = some Octet.lf
    · rw [if_pos h]
      constructor
      · intro hn
        cases hn
        exact ⟨breaksAt_zero.mpr h, fun i hi => absurd hi (Nat.not_lt_zero i)⟩
      · rintro ⟨-, hfirst⟩
        rcases n with _ | n
        · rfl
        · exact absurd (breaksAt_zero.mpr h) (hfirst 0 (Nat.succ_pos n))
    · rw [if_neg h, Option.map_eq_some_iff]
      constructor
      · rintro ⟨m, hm, rfl⟩
        obtain ⟨hbreaks, hfirst⟩ := ih.mp hm
        refine ⟨breaksAt_succ.mpr hbreaks, ?_⟩
        rintro (_ | i) hi
        · exact mt breaksAt_zero.mp h
        · exact mt breaksAt_succ.mp (hfirst i (by omega))
      · rintro ⟨hbreaks, hfirst⟩
        rcases n with _ | n
        · exact absurd (breaksAt_zero.mp hbreaks) h
        · refine ⟨n, ih.mpr ⟨breaksAt_succ.mp hbreaks, fun i hi => ?_⟩, rfl⟩
          exact mt breaksAt_succ.mpr (hfirst (i + 1) (by omega))

end

/-! ### The cutter over several bytes -/

/-- The cutter within a line, with the bytes of the frame before it. -/
def inLine (held line : Bytes) : Cutter :=
  { before := held.reverse, line := line.reverse, length := line.length }

/-- The cutter before or within a string of announced length, of which so much is still due. -/
def inString (held : Bytes) (due : Nat) : Cutter := { before := held.reverse, due }

/-- Feeds bytes up to the first that does not merely go on. Gives what this one brings and the bytes
that come after it. -/
def Cutter.cut (c : Cutter) : Bytes → Step × Bytes
  | [] => (.more c, [])
  | b :: rest =>
    match c.feed b with
    | .more next => next.cut rest
    | .frame bytes => (.frame bytes, rest)
    | .failure error => (.failure error, rest)

/-- Bytes that make up one frame, no less and no more. -/
def Whole (frame : Bytes) : Prop := ({} : Cutter).cut frame = (.frame frame, [])

section
variable {c d : Cutter} {bytes more rest held line frame : Bytes} {error : FrameError} {n : Nat}

theorem cut_append_more (h : c.cut bytes = (.more d, rest)) : c.cut (bytes ++ more) = d.cut more := by
  induction bytes generalizing c with
  | nil =>
    cases h
    rfl
  | cons b bytes ih =>
    unfold Cutter.cut at h
    rw [List.cons_append, Cutter.cut]
    rcases hfeed : c.feed b with next | frame | error <;> rw [hfeed] at h
    · exact ih h
    · cases h
    · cases h

theorem cut_append_frame (h : c.cut bytes = (.frame frame, rest)) :
    c.cut (bytes ++ more) = (.frame frame, rest ++ more) := by
  induction bytes generalizing c with
  | nil => cases h
  | cons b bytes ih =>
    unfold Cutter.cut at h
    rw [List.cons_append, Cutter.cut]
    rcases hfeed : c.feed b with next | frame | error <;> rw [hfeed] at h
    · exact ih h
    · cases h
      rfl
    · cases h

theorem cut_append_failure (h : c.cut bytes = (.failure error, rest)) :
    c.cut (bytes ++ more) = (.failure error, rest ++ more) := by
  induction bytes generalizing c with
  | nil => cases h
  | cons b bytes ih =>
    unfold Cutter.cut at h
    rw [List.cons_append, Cutter.cut]
    rcases hfeed : c.feed b with next | frame | error <;> rw [hfeed] at h
    · exact ih h
    · cases h
    · cases h
      rfl

/-- What the end of a line brings, in order: `held` is what the frame holds before the line. -/
theorem endOfLine_inLine (held line : Bytes) :
    endOfLine held.reverse line.reverse = match announced line with
      | none => .frame (held ++ line)
      | some length =>
        if maxLiteral < length then .failure (.literalTooLong length)
        else .more (inString (held ++ line) length) := by
  unfold endOfLine announced
  rcases announced? (line.reverse.drop 2) with _ | length <;> simp [inString]

/-- A byte that does not complete a line break goes on with the line. -/
theorem feed_inLine {b : UInt8} (h : ¬ (b = Octet.lf ∧ line.getLast? = some Octet.cr)) :
    (inLine held line).feed b = .more (inLine held (line ++ [b])) := by
  have hline : ¬ (b = Octet.lf ∧ (inLine held line).line.head? = some Octet.cr) := by
    rw [inLine, List.head?_reverse]
    exact h
  have hdue : ¬ 0 < (inLine held line).due := Nat.lt_irrefl 0
  unfold Cutter.feed
  rw [if_neg hdue, if_neg hline]
  simp [inLine]

/-- The byte that completes a line break ends the line. -/
theorem feed_break (h : line.getLast? = some Octet.cr) :
    (inLine held line).feed Octet.lf = endOfLine held.reverse (line ++ [Octet.lf]).reverse := by
  have hline : (inLine held line).line.head? = some Octet.cr := by
    rw [inLine, List.head?_reverse]
    exact h
  have hdue : ¬ 0 < (inLine held line).due := Nat.lt_irrefl 0
  unfold Cutter.feed
  rw [if_neg hdue, if_pos ⟨rfl, hline⟩, List.reverse_append]
  rfl

/-- A line goes on as long as it has no line break. -/
theorem cut_goes_on (h : ∀ i, ¬ BreaksAt (line ++ bytes) i) :
    (inLine held line).cut bytes = (.more (inLine held (line ++ bytes)), []) := by
  induction bytes generalizing line with
  | nil => rw [Cutter.cut, List.append_nil]
  | cons b rest ih =>
    have hgoes : ¬ (b = Octet.lf ∧ line.getLast? = some Octet.cr) := by
      rintro ⟨rfl, hlast⟩
      rw [List.getLast?_eq_getElem?] at hlast
      have hlt := (List.getElem?_eq_some_iff.mp hlast).1
      refine h (line.length - 1) ⟨?_, ?_⟩
      · rw [List.getElem?_append_left hlt, hlast]
      · rw [show line.length - 1 + 1 = line.length by omega]
        simp
    have hsplit : line ++ b :: rest = (line ++ [b]) ++ rest := by simp
    rw [Cutter.cut, feed_inLine hgoes, hsplit]
    exact ih (by rwa [← hsplit])

/-- Bytes without a line break are held as an open line. -/
theorem cut_open (h : ∀ i, ¬ BreaksAt bytes i) :
    (inLine held []).cut bytes = (.more (inLine held bytes), []) :=
  cut_goes_on h

/-- A line is ended by its first line break. -/
theorem cut_line (hbreak : BreaksAt bytes n) (hfirst : ∀ i < n, ¬ BreaksAt bytes i)
    (hlength : bytes.length = n + 2) :
    (inLine held []).cut bytes = match announced bytes with
      | none => (.frame (held ++ bytes), [])
      | some length =>
        if maxLiteral < length then (.failure (.literalTooLong length), [])
        else (.more (inString (held ++ bytes) length), []) := by
  have hsplit : bytes.take (n + 1) ++ [Octet.lf] = bytes := by
    have htake : bytes.take (n + 2) = bytes.take (n + 1) ++ (bytes[n + 1]?).toList := List.take_add_one
    rw [hbreak.2, List.take_of_length_le (by omega)] at htake
    exact htake.symm
  have hopen : ∀ i, ¬ BreaksAt (bytes.take (n + 1)) i := by
    intro i hi
    have hlt := hi.lt_length
    rw [List.length_take] at hlt
    refine hfirst i (by omega) ?_
    rw [← hsplit]
    exact (breaksAt_append hi.lt_length).mpr hi
  have hlast : (bytes.take (n + 1)).getLast? = some Octet.cr := by
    rw [List.getLast?_eq_getElem?, List.length_take, List.getElem?_take,
      show min (n + 1) bytes.length - 1 = n by omega, if_pos (Nat.lt_succ_self n)]
    exact hbreak.1
  have hcut : (inLine held []).cut (bytes.take (n + 1) ++ [Octet.lf]) = _ :=
    cut_append_more (cut_open hopen)
  rw [hsplit, Cutter.cut, feed_break hlast, hsplit, endOfLine_inLine] at hcut
  rw [hcut]
  rcases announced bytes with _ | length
  · rfl
  · by_cases hlong : maxLiteral < length <;> simp only [hlong, if_true, if_false, Cutter.cut]

/-- A string of announced length is held up to the bytes that are still due. -/
theorem cut_string (h : bytes.length ≤ n) :
    (inString held n).cut bytes = (.more (inString (held ++ bytes) (n - bytes.length)), []) := by
  induction bytes generalizing held n with
  | nil => simp [Cutter.cut]
  | cons b rest ih =>
    rw [List.length_cons] at h
    have hdue : 0 < (inString held n).due := by
      show 0 < n
      omega
    have hfeed : (inString held n).feed b = .more (inString (held ++ [b]) (n - 1)) := by
      unfold Cutter.feed
      rw [if_pos hdue]
      simp [inString]
    rw [Cutter.cut, hfeed]
    show (inString (held ++ [b]) (n - 1)).cut rest = _
    rw [ih (by omega), List.append_assoc, List.length_cons, Nat.sub_sub, Nat.add_comm 1]
    rfl

end

/-! ### All frames of a stream -/

namespace Cutting
variable {s : Cutting} {bytes more rest frame : Bytes} {c : Cutter} {error : FrameError}

theorem foldl_feed_error (h : s.error = some error) : bytes.foldl feed s = s := by
  induction bytes with
  | nil => rfl
  | cons b rest ih =>
    have hfeed : s.feed b = s := by
      unfold feed
      rw [h]
    rw [List.foldl_cons, hfeed, ih]

theorem pause_error (h : s.error = some error) : s.pause = s := by
  unfold pause
  rw [h]

/-- After an error, reads make no difference. -/
theorem foldl_read_error (h : s.error = some error) (reads : List Bytes) : reads.foldl read s = s := by
  induction reads with
  | nil => rfl
  | cons bytes rest ih => rw [List.foldl_cons, read, foldl_feed_error h, pause_error h, ih]

theorem foldl_feed_more (herror : s.error = none) (h : s.cutter.cut bytes = (.more c, rest)) :
    bytes.foldl feed s = { s with cutter := c } := by
  induction bytes generalizing s with
  | nil =>
    cases h
    rfl
  | cons b bytes ih =>
    unfold Cutter.cut at h
    rw [List.foldl_cons, feed, herror]
    rcases hfeed : s.cutter.feed b with next | frame | error <;> rw [hfeed] at h
    · exact ih rfl h
    · cases h
    · cases h

theorem foldl_feed_frame (herror : s.error = none) (h : s.cutter.cut bytes = (.frame frame, rest)) :
    bytes.foldl feed s = rest.foldl feed { s with frames := frame :: s.frames, cutter := {} } := by
  induction bytes generalizing s with
  | nil => cases h
  | cons b bytes ih =>
    unfold Cutter.cut at h
    rw [List.foldl_cons, feed, herror]
    rcases hfeed : s.cutter.feed b with next | frame | error <;> rw [hfeed] at h
    · exact ih rfl h
    · cases h
      rfl
    · cases h

theorem foldl_feed_failure (herror : s.error = none) (h : s.cutter.cut bytes = (.failure error, rest)) :
    (bytes.foldl feed s).frames = s.frames ∧ (bytes.foldl feed s).error = some error := by
  induction bytes generalizing s with
  | nil => cases h
  | cons b bytes ih =>
    unfold Cutter.cut at h
    rw [List.foldl_cons, feed, herror]
    rcases hfeed : s.cutter.feed b with next | frame | error <;> rw [hfeed] at h
    · exact ih rfl h
    · cases h
    · cases h
      rw [foldl_feed_error rfl]
      exact ⟨rfl, rfl⟩

/-- The end of a read goes unnoticed. -/
def Quiet (s : Cutting) : Prop := s.pause = s

theorem quiet_of_error (h : s.error = some error) : s.Quiet := pause_error h

theorem quiet_of_length (h : s.cutter.due = 0 → s.cutter.length ≤ maxLine) : s.Quiet := by
  unfold Quiet pause
  rcases s.error with _ | error
  · have hshort : ¬ (s.cutter.due = 0 ∧ maxLine < s.cutter.length) := fun ⟨hdue, hlong⟩ => by
      have hle := h hdue
      omega
    exact if_neg hshort
  · rfl

theorem quiet_of_cut (hcut : ({} : Cutter).cut bytes = (.more c, [])) (h : c.due = 0 → c.length ≤ maxLine) :
    (bytes.foldl feed {}).Quiet := by
  rw [foldl_feed_more rfl hcut]
  exact quiet_of_length h

/-- If the end of a read goes unnoticed, the next read might as well have been part of it. -/
theorem read_read (h : (bytes.foldl feed s).Quiet) : (s.read bytes).read more = s.read (bytes ++ more) := by
  have hread : s.read bytes = bytes.foldl feed s := h
  rw [hread, read, read, List.foldl_append]

/-- The cutting behind a frame that came first. -/
def behind (frame : Bytes) (s : Cutting) : Cutting := { s with frames := s.frames ++ [frame] }

theorem feed_behind (b : UInt8) : (s.behind frame).feed b = (s.feed b).behind frame := by
  obtain ⟨frames, cutter, _ | error⟩ := s
  · unfold feed behind
    rcases cutter.feed b with next | bytes | error <;> rfl
  · rfl

theorem read_behind : (s.behind frame).read bytes = (s.read bytes).behind frame := by
  have hfeed : bytes.foldl feed (s.behind frame) = (bytes.foldl feed s).behind frame := by
    induction bytes generalizing s with
    | nil => rfl
    | cons b rest ih => rw [List.foldl_cons, feed_behind, ih, List.foldl_cons]
  rw [read, hfeed, read]
  obtain ⟨frames, cutter, _ | error⟩ := bytes.foldl feed s
  · unfold pause behind
    dsimp only
    split <;> rfl
  · rfl

theorem foldl_read_behind (reads : List Bytes) :
    reads.foldl read (s.behind frame) = (reads.foldl read s).behind frame := by
  induction reads generalizing s with
  | nil => rfl
  | cons bytes rest ih => rw [List.foldl_cons, read_behind, ih, List.foldl_cons]

/-- What comes of a stream that has been cut: its frames, and the error that every further attempt
to read meets. -/
def outcome (s : Cutting) : List Bytes × FrameError := (s.frames.reverse, s.error.getD .closed)

theorem outcome_behind : (s.behind frame).outcome = (frame :: s.outcome.1, s.outcome.2) := by
  simp [outcome, behind]

end Cutting

end Mailroom.Frame
