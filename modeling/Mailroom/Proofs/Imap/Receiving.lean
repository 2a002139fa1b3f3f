import Mailroom.Proofs.Imap.Cutting

/-! Frames received over a buffer.

A receiver keeps the bytes it has read and not yet returned, searches them for line breaks from where
it last stopped, and reads on when it needs more. `Searched` is what holds of the search at any time,
and `receive_spec` says what a receiving brings: the first frame that is cut from the unread bytes, or
the error that is all that comes of them. -/
namespace Mailroom.Frame

/-! ### The receiver -/

/-- Bytes that were read and not yet returned, and the reads to come, each of which brings something. -/
structure Intake where
  buffer : Bytes
  reads : List Bytes
  nonempty : [] ∉ reads

namespace Intake
variable {s t u : Intake} {lineStart scanned size n : Nat} {line frame : Bytes} {error : FrameError}

/-- All bytes that were not yet returned, whether they were read or not. -/
def unread (s : Intake) : Bytes := s.buffer ++ s.reads.flatten

/-- One read. -/
def readMore : Intake → Option Intake
  | ⟨_, [], _⟩ => none
  | ⟨buffer, bytes :: reads, h⟩ =>
    some ⟨buffer ++ bytes, reads, fun hmem => h (List.mem_cons_of_mem bytes hmem)⟩

theorem readMore_shrinks (h : s.readMore = some t) : t.reads.length < s.reads.length := by
  obtain ⟨buffer, _ | ⟨bytes, reads⟩, hne⟩ := s
  · cases h
  · cases h
    exact Nat.lt_succ_self _

/-- Reads until the buffer has so many bytes. -/
def fill (s : Intake) (size : Nat) : Except FrameError Unit × Intake :=
  if size ≤ s.buffer.length then (.ok (), s)
  else match _h : s.readMore with
    | none => (.error .closed, s)
    | some t => t.fill size
termination_by s.reads.length
decreasing_by exact readMore_shrinks _h

theorem fill_shrinks (s : Intake) (size : Nat) :
    (s.fill size).2 = s ∨ (s.fill size).2.reads.length < s.reads.length := by
  fun_induction fill s size with
  | case1 s hsize => exact .inl rfl
  | case2 s hsize hmore => exact .inl rfl
  | case3 s hsize t hmore ih =>
    have hlt := readMore_shrinks hmore
    rcases ih with heq | hmorelt
    · rw [heq]
      exact .inr hlt
    · exact .inr (Nat.lt_trans hmorelt hlt)

/-- Receives a frame. `lineStart` is where its last line begins, and up to `scanned` that line was
searched for its break. -/
def receive (s : Intake) (lineStart scanned : Nat) : Except FrameError Bytes × Intake :=
  match _hbreak : lineBreak? (s.buffer.drop scanned) with
  | some i =>
    let stop := scanned + i + 2
    match announced ((s.buffer.take stop).drop lineStart) with
    | none => (.ok (s.buffer.take stop), { s with buffer := s.buffer.drop stop })
    | some length =>
      if maxLiteral < length then (.error (.literalTooLong length), s)
      else match _hfill : s.fill (stop + length) with
        | (.error error, t) => (.error error, t)
        | (.ok _, t) => t.receive (stop + length) (stop + length)
  | none =>
    if maxLine < s.buffer.length - lineStart then (.error .lineTooLong, s)
    else match _hmore : s.readMore with
      | none => (.error .closed, s)
      | some t => t.receive lineStart (max scanned (s.buffer.length - 1))
termination_by (s.reads.length, s.buffer.length - scanned)
decreasing_by
  · have hlt := (lineBreak?_eq_some.mp _hbreak).1.lt_length
    rw [List.length_drop] at hlt
    have hshrinks : t = s ∨ t.reads.length < s.reads.length := by
      have hfill := fill_shrinks s (stop + length)
      rwa [_hfill] at hfill
    rcases hshrinks with rfl | hshrinks
    · exact Prod.Lex.right _ (by omega)
    · exact Prod.Lex.left _ _ hshrinks
  · exact Prod.Lex.left _ _ (readMore_shrinks _hmore)

/-- Receives the next frame. -/
def next (s : Intake) : Except FrameError Bytes × Intake := s.receive 0 0

/-- What so many receivings bring one after the other, and what is left after them. -/
def calls : Nat → Intake → List (Except FrameError Bytes) × Intake
  | 0, s => ([], s)
  | n + 1, s => (s.next.1 :: (calls n s.next.2).1, (calls n s.next.2).2)

/-! ### What a receiver owes -/

/-- What comes of cutting everything that was not yet returned, read by read. -/
def cutting (s : Intake) : Cutting := s.reads.foldl Cutting.read (Cutting.read {} s.buffer)

/-- The same is still to be returned, and no less of it has been read. -/
structure Later (s t : Intake) : Prop where
  buffer : s.buffer <+: t.buffer
  unread : t.unread = s.unread
  cutting : t.cutting = s.cutting

theorem Later.refl (s : Intake) : Later s s := ⟨List.prefix_rfl, rfl, rfl⟩

theorem Later.trans (h : Later s t) (h' : Later t u) : Later s u :=
  ⟨h.buffer.trans h'.buffer, h'.unread.trans h.unread, h'.cutting.trans h.cutting⟩

theorem readMore_none (h : s.readMore = none) : s.reads = [] := by
  obtain ⟨buffer, _ | ⟨bytes, reads⟩, hne⟩ := s
  · rfl
  · cases h

theorem readMore_grows (h : s.readMore = some t) : s.buffer.length < t.buffer.length := by
  obtain ⟨buffer, _ | ⟨bytes, reads⟩, hne⟩ := s
  · cases h
  · cases h
    have hbytes : bytes ≠ [] := fun hnil => hne (hnil ▸ List.mem_cons_self ..)
    have hpos := List.length_pos_iff.mpr hbytes
    show buffer.length < (buffer ++ bytes).length
    rw [List.length_append]
    omega

/-- Reading on changes nothing, unless what has been read is too long by now. -/
theorem readMore_later (h : s.readMore = some t) (hquiet : (s.buffer.foldl Cutting.feed {}).Quiet) :
    Later s t := by
  obtain ⟨buffer, _ | ⟨bytes, reads⟩, hne⟩ := s
  · cases h
  · cases h
    refine ⟨List.prefix_append _ _, ?_, ?_⟩
    · simp [unread]
    · show reads.foldl Cutting.read (Cutting.read {} (buffer ++ bytes)) = _
      rw [← Cutting.read_read hquiet]
      rfl

/-- A string of announced length that has not arrived whole. -/
theorem string_open {bytes : Bytes} (hcut : ({} : Cutter).cut line = (.more (inString line n), []))
    (hline : line <+: bytes) (hshort : bytes.length < line.length + n) :
    ∃ due, 0 < due ∧ ({} : Cutter).cut bytes = (.more (inString bytes due), []) := by
  obtain ⟨string, rfl⟩ := hline
  rw [List.length_append] at hshort
  exact ⟨n - string.length, by omega, by rw [cut_append_more hcut, cut_string (by omega)]⟩

/-- A buffer that cannot be cut further ends the cutting, whatever is read after it. -/
theorem outcome_of_error (h : (Cutting.read {} s.buffer).error = some error)
    (hframes : (Cutting.read {} s.buffer).frames = []) : s.cutting.outcome = ([], error) := by
  rw [cutting, Cutting.foldl_read_error h, Cutting.outcome, h, hframes]
  rfl

/-- A failure of the cutter ends the cutting, whatever is read after it. -/
theorem outcome_of_failure {rest : Bytes} (hcut : ({} : Cutter).cut s.buffer = (.failure error, rest)) :
    s.cutting.outcome = ([], error) := by
  have hfeed : (s.buffer.foldl Cutting.feed {}).frames = [] ∧ _ := Cutting.foldl_feed_failure rfl hcut
  obtain ⟨hframes, herror⟩ := hfeed
  have hread : Cutting.read {} s.buffer = s.buffer.foldl Cutting.feed {} := Cutting.pause_error herror
  exact outcome_of_error (hread ▸ herror) (hread ▸ hframes)

/-- So does a line that has grown too long by the end of a read. -/
theorem outcome_of_long {c : Cutter} (hcut : ({} : Cutter).cut s.buffer = (.more c, [])) (hdue : c.due = 0)
    (hlong : maxLine < c.length) : s.cutting.outcome = ([], .lineTooLong) := by
  have hread : Cutting.read {} s.buffer = { cutter := c, error := some .lineTooLong } := by
    rw [Cutting.read, Cutting.foldl_feed_more rfl hcut]
    exact if_pos ⟨hdue, hlong⟩
  exact outcome_of_error (hread ▸ rfl) (hread ▸ rfl)

/-- An unfinished frame at the end of the stream is never returned. -/
theorem outcome_of_more {c : Cutter} (hreads : s.reads = [])
    (hcut : ({} : Cutter).cut s.buffer = (.more c, [])) (hquiet : c.due = 0 → c.length ≤ maxLine) : s.cutting.outcome = ([], .closed) := by
  have hread : Cutting.read {} s.buffer = s.buffer.foldl Cutting.feed {} := Cutting.quiet_of_cut hcut hquiet
  rw [cutting, hreads, List.foldl_nil, hread, Cutting.foldl_feed_more rfl hcut]
  rfl

/-- A string of announced length that has arrived whole. -/
theorem string_whole {bytes : Bytes} (hcut : ({} : Cutter).cut line = (.more (inString line n), []))
    (hline : line <+: bytes) (hsize : line.length + n ≤ bytes.length) :
    ({} : Cutter).cut (bytes.take (line.length + n)) =
      (.more (inLine (bytes.take (line.length + n)) []), []) := by
  obtain ⟨rest, rfl⟩ := hline
  rw [List.length_append] at hsize
  have hrest : (rest.take n).length = n := List.length_take_of_le (by omega)
  rw [List.take_length_add_append, cut_append_more hcut, cut_string (Nat.le_of_eq hrest), hrest,
    Nat.sub_self]
  rfl

/-- Filling the buffer with a string of announced length changes nothing, and fails only if the
stream ends first. -/
theorem fill_spec (hcut : ({} : Cutter).cut line = (.more (inString line n), []))
    (hline : line <+: s.buffer) (hsize : line.length + n = size) :
    Later s (s.fill size).2 ∧
      ((s.fill size).1 = .ok () ∧ size ≤ (s.fill size).2.buffer.length ∨
        (s.fill size).1 = .error .closed ∧ (s.fill size).2.cutting.outcome = ([], .closed)) := by
  fun_induction fill s size with
  | case1 s hfull => exact ⟨.refl s, .inl ⟨rfl, hfull⟩⟩
  | case2 s hfull hmore =>
    obtain ⟨due, hdue, hcut⟩ := string_open hcut hline (hsize ▸ Nat.lt_of_not_le hfull)
    have hend := outcome_of_more (readMore_none hmore) hcut fun h => absurd h (Nat.ne_of_gt hdue)
    exact ⟨.refl s, .inr ⟨rfl, hend⟩⟩
  | case3 s hfull t hmore ih =>
    obtain ⟨due, hdue, hcut'⟩ := string_open hcut hline (hsize ▸ Nat.lt_of_not_le hfull)
    have hlater := readMore_later hmore (Cutting.quiet_of_cut hcut' fun h => absurd h (Nat.ne_of_gt hdue))
    obtain ⟨hlater', hend⟩ := ih (hline.trans hlater.buffer)
    exact ⟨hlater.trans hlater', hend⟩

/-! ### The search for a line break -/

/-- The last line begins at `lineStart` and has no break before `scanned`. -/
structure Searched (s : Intake) (lineStart scanned : Nat) : Prop where
  cut : ({} : Cutter).cut (s.buffer.take lineStart) = (.more (inLine (s.buffer.take lineStart) []), [])
  le : lineStart ≤ scanned
  within : scanned ≤ s.buffer.length
  /-- A byte that may complete a break with the next one is yet to be searched. -/
  behind : scanned = lineStart ∨ scanned < s.buffer.length
  unbroken : ∀ i, lineStart ≤ i → i < scanned → ¬ BreaksAt s.buffer i

/-- A line that begins where the search ends. -/
theorem Searched.after
    (hcut : ({} : Cutter).cut (s.buffer.take n) = (.more (inLine (s.buffer.take n) []), []))
    (hn : n ≤ s.buffer.length) : Searched s n n where
  cut := hcut
  le := Nat.le_refl n
  within := hn
  behind := .inl rfl
  unbroken := fun _ hle hlt => absurd hlt (Nat.not_lt.mpr hle)

theorem Searched.start (s : Intake) : Searched s 0 0 := .after rfl (Nat.zero_le _)

theorem inLine_short (hshort : ¬ maxLine < s.buffer.length - lineStart) :
    (inLine (s.buffer.take lineStart) (s.buffer.drop lineStart)).length ≤ maxLine := by
  show (s.buffer.drop lineStart).length ≤ maxLine
  rw [List.length_drop]
  omega

section
variable (h : Searched s lineStart scanned)
include h

theorem Searched.no_break (hnone : lineBreak? (s.buffer.drop scanned) = none) (i : Nat)
    (hi : lineStart ≤ i) : ¬ BreaksAt s.buffer i := by
  by_cases hlt : i < scanned
  · exact h.unbroken i hi hlt
  · rw [show i = scanned + (i - scanned) by omega, ← breaksAt_drop]
    exact lineBreak?_eq_none.mp hnone _

/-- Without a break all that was read is an unfinished frame. -/
theorem Searched.open_line (hnone : lineBreak? (s.buffer.drop scanned) = none) :
    ({} : Cutter).cut s.buffer =
      (.more (inLine (s.buffer.take lineStart) (s.buffer.drop lineStart)), []) := by
  have hopen : ∀ i, ¬ BreaksAt (s.buffer.drop lineStart) i := fun i hi =>
    h.no_break hnone (lineStart + i) (Nat.le_add_right ..) (breaksAt_drop.mp hi)
  have hcut : ({} : Cutter).cut (s.buffer.take lineStart ++ s.buffer.drop lineStart) = _ :=
    cut_append_more h.cut
  rwa [List.take_append_drop, cut_open hopen] at hcut

/-- The search goes on with the next read, from the last byte of those read so far. -/
theorem Searched.go_on (hnone : lineBreak? (s.buffer.drop scanned) = none) (hmore : s.readMore = some t)
    (hlater : Later s t) : Searched t lineStart (max scanned (s.buffer.length - 1)) := by
  have hgrows := readMore_grows hmore
  obtain ⟨bytes, hbuffer⟩ := hlater.buffer
  have hle := h.le
  have hwithin := h.within
  -- The last byte of the old buffer had no next one, so it alone has to be searched again.
  refine ⟨?_, by omega, by omega, by omega, fun i hi hlt hbreak => ?_⟩
  · rw [← hbuffer, List.take_append_of_le_length (by omega)]
    exact h.cut
  · rcases h.behind with hstart | hbehind
    all_goals
      rw [← hbuffer] at hbreak
      exact h.no_break hnone i hi ((breaksAt_append (by omega)).mp hbreak)

/-- The first break found after the search is the first of the line. -/
theorem Searched.first_break {i : Nat} (hbreak : lineBreak? (s.buffer.drop scanned) = some i) :
    BreaksAt s.buffer (scanned + i) ∧ ∀ j, lineStart ≤ j → j < scanned + i → ¬ BreaksAt s.buffer j := by
  obtain ⟨hfound, hfirst⟩ := lineBreak?_eq_some.mp hbreak
  refine ⟨breaksAt_drop.mp hfound, fun j hj hlt hbreaks => ?_⟩
  by_cases hsearched : j < scanned
  · exact h.unbroken j hj hsearched hbreaks
  · refine hfirst (j - scanned) (by omega) (breaksAt_drop.mpr ?_)
    rwa [show scanned + (j - scanned) = j by omega]

/-- The first break found ends the line. -/
theorem Searched.end_line {i : Nat} (hbreak : lineBreak? (s.buffer.drop scanned) = some i) :
    ({} : Cutter).cut (s.buffer.take (scanned + i + 2)) =
      match announced ((s.buffer.take (scanned + i + 2)).drop lineStart) with
      | none => (.frame (s.buffer.take (scanned + i + 2)), [])
      | some length =>
        if maxLiteral < length then (.failure (.literalTooLong length), [])
        else (.more (inString (s.buffer.take (scanned + i + 2)) length), []) := by
  obtain ⟨hfound, hfirst⟩ := h.first_break hbreak
  have hlt := hfound.lt_length
  have hle := h.le
  have hhere : ∀ j, lineStart + j ≤ scanned + i →
      (BreaksAt ((s.buffer.take (scanned + i + 2)).drop lineStart) j ↔ BreaksAt s.buffer (lineStart + j)) :=
    fun j hj => breaksAt_drop.trans (breaksAt_take (by omega))
  have hends : BreaksAt ((s.buffer.take (scanned + i + 2)).drop lineStart) (scanned + i - lineStart) := by
    rw [hhere _ (by omega), Nat.add_sub_cancel' (by omega)]
    exact hfound
  have hnone : ∀ j < scanned + i - lineStart,
      ¬ BreaksAt ((s.buffer.take (scanned + i + 2)).drop lineStart) j :=
    fun j hj => mt (hhere j (by omega)).mp (hfirst _ (Nat.le_add_right ..) (by omega))
  have hlength :
      ((s.buffer.take (scanned + i + 2)).drop lineStart).length = scanned + i - lineStart + 2 := by
    rw [List.length_drop, List.length_take]
    omega
  have hsplit : s.buffer.take lineStart ++ (s.buffer.take (scanned + i + 2)).drop lineStart =
      s.buffer.take (scanned + i + 2) := by
    have htake : (s.buffer.take (scanned + i + 2)).take lineStart = s.buffer.take lineStart := by
      rw [List.take_take, Nat.min_eq_left (by omega)]
    rw [← htake, List.take_append_drop]
  have hcut : ({} : Cutter).cut (s.buffer.take lineStart ++ _) = _ :=
    (cut_append_more h.cut).trans (cut_line hends hnone hlength)
  rwa [hsplit] at hcut

/-- The string announced by the line is read in full, unless the stream ends first. -/
theorem Searched.fill_string {i length : Nat} {r : Except FrameError Unit}
    (hbreak : lineBreak? (s.buffer.drop scanned) = some i)
    (hlength : announced ((s.buffer.take (scanned + i + 2)).drop lineStart) = some length)
    (hshort : ¬ maxLiteral < length) (hfill : s.fill (scanned + i + 2 + length) = (r, t)) :
    Later s t ∧ (r = .ok () ∧ Searched t (scanned + i + 2 + length) (scanned + i + 2 + length) ∨
      r = .error .closed ∧ t.cutting.outcome = ([], .closed)) := by
  have hcut := h.end_line hbreak
  rw [hlength] at hcut
  simp only [hshort, if_false] at hcut
  have hstop : (s.buffer.take (scanned + i + 2)).length = scanned + i + 2 :=
    List.length_take_of_le (h.first_break hbreak).1.lt_length
  obtain ⟨hlater, hend⟩ := fill_spec hcut (List.take_prefix ..) (congrArg (· + length) hstop)
  rw [hfill] at hlater hend
  refine ⟨hlater, hend.imp_left fun ⟨hok, hfull⟩ => ⟨hok, ?_⟩⟩
  have hwhole := string_whole hcut ((List.take_prefix ..).trans hlater.buffer) (by rwa [hstop])
  rw [hstop] at hwhole
  exact .after hwhole hfull

end

/-! ### What a receiving brings -/

/-- A frame comes first in what was to be returned, and what is cut after it is cut behind it. An
error is all that comes of the rest, and leaves it as it was. -/
def Received (s : Intake) : Except FrameError Bytes → Intake → Prop
  | .ok frame, t =>
    Whole frame ∧ frame ++ t.unread = s.unread ∧ s.cutting = t.cutting.behind frame
  | .error error, t => Later s t ∧ t.cutting.outcome = ([], error)

theorem Received.of_later {r : Except FrameError Bytes} (hlater : Later s t) (h : Received t r u) :
    Received s r u := by
  rcases r with error | frame
  · exact ⟨hlater.trans h.1, h.2⟩
  · exact ⟨h.1, h.2.1.trans hlater.unread, hlater.cutting.symm.trans h.2.2⟩

/-- A frame at the front of the buffer. -/
theorem received_frame (hcut : Whole (s.buffer.take n)) :
    Received s (.ok (s.buffer.take n)) { s with buffer := s.buffer.drop n } := by
  refine ⟨hcut, ?_, ?_⟩
  · rw [unread, ← List.append_assoc, List.take_append_drop]
    rfl
  · have hbuffer : ({} : Cutter).cut s.buffer = (.frame (s.buffer.take n), s.buffer.drop n) := by
      have happend : ({} : Cutter).cut (s.buffer.take n ++ s.buffer.drop n) = _ := cut_append_frame hcut
      rwa [List.take_append_drop] at happend
    have hread :
        Cutting.read {} s.buffer = (Cutting.read {} (s.buffer.drop n)).behind (s.buffer.take n) := by
      rw [← Cutting.read_behind, Cutting.read, Cutting.foldl_feed_frame rfl hbuffer]
      rfl
    rw [cutting, hread, Cutting.foldl_read_behind]
    rfl

/-- One receiving, from anywhere in the search. -/
theorem receive_spec (h : Searched s lineStart scanned) :
    Received s (s.receive lineStart scanned).1 (s.receive lineStart scanned).2 := by
  -- Along the calls of `receive`. The first four cases have a break: the line ends the frame, announces
  -- too long a string, or one that does not arrive or does. In the others the line is open: it is too
  -- long, the stream ends, or a read is added to it.
  fun_induction receive s lineStart scanned with
  | case1 s lineStart scanned i hbreak stop hnone =>
    have hcut := h.end_line hbreak
    rw [hnone] at hcut
    exact received_frame hcut
  | case2 s lineStart scanned i hbreak stop length hlength hlong =>
    have hcut := h.end_line hbreak
    rw [hlength] at hcut
    simp only [hlong, if_true] at hcut
    have hbuffer : ({} : Cutter).cut (s.buffer.take stop ++ s.buffer.drop stop) = _ :=
      cut_append_failure hcut
    rw [List.take_append_drop] at hbuffer
    exact ⟨.refl s, outcome_of_failure hbuffer⟩
  | case3 s lineStart scanned i hbreak stop length hlength hshort error t hfill =>
    obtain ⟨hlater, ⟨hok, -⟩ | ⟨herror, houtcome⟩⟩ := h.fill_string hbreak hlength hshort hfill
    · cases hok
    · cases herror
      exact ⟨hlater, houtcome⟩
  | case4 s lineStart scanned i hbreak stop length hlength hshort _ t hfill ih =>
    obtain ⟨hlater, ⟨-, hsearched⟩ | ⟨herror, -⟩⟩ := h.fill_string hbreak hlength hshort hfill
    · exact (ih hsearched).of_later hlater
    · cases herror
  | case5 s lineStart scanned hnone hlong =>
    refine ⟨.refl s, outcome_of_long (h.open_line hnone) rfl ?_⟩
    rwa [inLine, List.length_drop]
  | case6 s lineStart scanned hnone hshort hmore =>
    exact ⟨.refl s, outcome_of_more (readMore_none hmore) (h.open_line hnone) fun _ => inLine_short hshort⟩
  | case7 s lineStart scanned hnone hshort t hmore ih =>
    have hquiet := Cutting.quiet_of_cut (h.open_line hnone) fun _ => inLine_short hshort
    have hlater := readMore_later hmore hquiet
    exact (ih (h.go_on hnone hmore hlater)).of_later hlater

/-! ### Successive receivings -/

theorem next_spec (s : Intake) : Received s s.next.1 s.next.2 := receive_spec (.start s)

/-- What so many receivings bring if these frames are to come and then an error, which is met again
and again. -/
def answers (error : FrameError) : List Bytes → Nat → List (Except FrameError Bytes)
  | _, 0 => []
  | [], n + 1 => .error error :: answers error [] n
  | frame :: frames, n + 1 => .ok frame :: answers error frames n

/-- Receivings bring the frames into which the unread bytes are cut, and then their error. -/
theorem calls_results (n : Nat) (s : Intake) :
    (calls n s).1 = answers s.cutting.outcome.2 s.cutting.outcome.1 n := by
  induction n generalizing s with
  | zero => rw [calls, answers]
  | succ n ih =>
    have hnext := next_spec s
    rw [calls, ih]
    rcases hr : s.next.1 with error | frame <;> rw [hr] at hnext
    · obtain ⟨hlater, houtcome⟩ := hnext
      rw [← hlater.cutting, houtcome, answers]
    · obtain ⟨-, -, hcutting⟩ := hnext
      rw [hcutting, Cutting.outcome_behind, answers]

/-- Every byte is in a returned frame or still unread. -/
theorem calls_lossless (n : Nat) (s : Intake) :
    ((calls n s).1.filterMap Except.toOption).flatten ++ (calls n s).2.unread = s.unread := by
  induction n generalizing s with
  | zero => rfl
  | succ n ih =>
    have hnext := next_spec s
    have hrest := ih s.next.2
    rcases hr : s.next.1 with error | frame <;> rw [hr] at hnext
    · rw [calls, hr]
      exact hrest.trans hnext.1.unread
    · rw [calls, hr, ← hnext.2.1, ← hrest, ← List.append_assoc]
      rfl

/-- What a receiving returns is one frame, no less and no more. -/
theorem calls_whole (n : Nat) (s : Intake) {frame : Bytes} (h : .ok frame ∈ (calls n s).1) :
    Whole frame := by
  induction n generalizing s with
  | zero => cases h
  | succ n ih =>
    rcases List.mem_cons.mp h with hfirst | hrest
    · have hnext := next_spec s
      rw [← hfirst] at hnext
      exact hnext.1
    · exact ih s.next.2 hrest

/-! ### Chunks -/

theorem nil_not_mem_reads (limit : Nat) (bytes : Bytes) : [] ∉ Frame.reads limit bytes := by
  induction limit generalizing bytes with
  | zero => exact List.not_mem_nil
  | succ limit ih =>
    unfold Frame.reads
    by_cases hempty : bytes.isEmpty
    · rw [if_pos hempty]
      exact List.not_mem_nil
    · rw [if_neg hempty, List.mem_cons]
      rintro (htake | hmem)
      · have hlength := congrArg List.length htake
        rw [List.length_take, List.length_nil] at hlength
        have hpos := List.length_pos_iff.mpr (mt List.isEmpty_iff.mpr hempty)
        have hsize : 0 < readSize := by decide
        omega
      · exact ih _ hmem

/-- The intake of a stream that arrives in chunks. -/
def ofChunks (chunks : List Bytes) : Intake where
  buffer := []
  reads := chunks.flatMap fun chunk => Frame.reads (chunk.length / readSize + 1) chunk
  nonempty := by
    rw [List.mem_flatMap]
    rintro ⟨chunk, -, hmem⟩
    exact nil_not_mem_reads _ _ hmem

/-- The frames that are cut from chunks byte by byte are those that are received over a buffer. -/
theorem calls_ofChunks (n : Nat) (chunks : List Bytes) :
    (calls n (ofChunks chunks)).1 = answers (Frame.ofChunks chunks).2 (Frame.ofChunks chunks).1 n :=
  calls_results n (ofChunks chunks)

end Intake

end Mailroom.Frame
