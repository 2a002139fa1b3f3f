import Mailroom.Proofs.Imap.Receiving

/-! Frames and the reads in which they arrive.

The end of a read is noticed only while a line is too long. `arrival_independent` says that the reads
in which a stream arrives make no difference as long as no line of it is: receivings bring the frames
of the stream in order and then its error, and return or keep every byte. -/
namespace Mailroom.Frame

/-! ### Lines that are short enough -/

/-- The lines of a stream outside strings, when so many bytes of a string are still to come before
the line whose bytes so far are given latest first. -/
def linesFrom (due : Nat) (line : Bytes) : Bytes → List Bytes
  | [] => [line.reverse]
  | b :: rest =>
    match due with
    | due + 1 => linesFrom due line rest
    | 0 =>
      if b = Octet.lf ∧ line.head? = some Octet.cr then
        (b :: line).reverse :: linesFrom ((announced? (line.drop 1)).getD 0) [] rest
      else linesFrom 0 (b :: line) rest

/-- The lines of a stream outside strings, each with its line break. A line begins at the beginning of
a frame or after a string, and the last of them ends where the stream does. -/
def lines (stream : Bytes) : List Bytes := linesFrom 0 [] stream

theorem exists_linesFrom (line stream : Bytes) : ∃ l ∈ linesFrom 0 line stream, line.length ≤ l.length := by
  induction stream generalizing line with
  | nil => exact ⟨_, List.mem_cons_self .., Nat.le_of_eq line.length_reverse.symm⟩
  | cons b rest ih =>
    by_cases hend : b = Octet.lf ∧ line.head? = some Octet.cr
    · rw [linesFrom, if_pos hend]
      exact ⟨_, List.mem_cons_self .., by simp⟩
    · rw [linesFrom, if_neg hend]
      obtain ⟨l, hl, hle⟩ := ih (b :: line)
      exact ⟨l, hl, Nat.le_trans (Nat.le_succ _) hle⟩

/-- No line that is open or still to come is too long. -/
structure Cutter.Short (c : Cutter) (rest : Bytes) : Prop where
  length : c.length = c.line.length
  lines : ∀ line ∈ linesFrom c.due c.line rest, line.length ≤ maxLine

theorem Cutter.Short.open_line {c : Cutter} {rest : Bytes} (h : c.Short rest) (hdue : c.due = 0) :
    c.length ≤ maxLine := by
  obtain ⟨line, hline, hle⟩ := exists_linesFrom c.line rest
  rw [h.length]
  exact Nat.le_trans hle (h.lines line (hdue ▸ hline))

theorem Cutter.Short.feed {c : Cutter} {b : UInt8} {rest : Bytes} (h : c.Short (b :: rest)) :
    match c.feed b with
    | .more next => next.Short rest
    | .frame _ => ({} : Cutter).Short rest
    | .failure _ => True := by
  obtain ⟨before, line, length, due⟩ := c
  obtain ⟨hlength, hlines⟩ := h
  dsimp only at hlength hlines
  unfold Cutter.feed
  rcases due with _ | due
  · rw [if_neg (Nat.lt_irrefl 0)]
    by_cases hend : b = Octet.lf ∧ line.head? = some Octet.cr
    · rw [linesFrom, if_pos hend] at hlines
      have hrest : ∀ l ∈ linesFrom ((announced? (line.drop 1)).getD 0) [] rest, l.length ≤ maxLine :=
        fun l hl => hlines l (List.mem_cons_of_mem _ hl)
      rw [if_pos hend]
      show match endOfLine before (b :: line) with | .more _ => _ | .frame _ => _ | .failure _ => _
      rw [endOfLine, List.drop_succ_cons]
      rcases hannounced : announced? (line.drop 1) with _ | length <;> rw [hannounced] at hrest
      · exact ⟨rfl, hrest⟩
      · by_cases hlong : maxLiteral < length <;> simp only [hlong, if_true, if_false]
        exact ⟨rfl, hrest⟩
    · rw [linesFrom, if_neg hend] at hlines
      rw [if_neg hend]
      exact ⟨congrArg Nat.succ hlength, hlines⟩
  · rw [if_pos (Nat.succ_pos due)]
    exact ⟨hlength, hlines⟩

namespace Cutting
variable {s : Cutting} {bytes rest : Bytes} {b : UInt8}

/-- As long as there is no error, no line that is open or still to come is too long. -/
def Short (s : Cutting) (rest : Bytes) : Prop := s.error = none → s.cutter.Short rest

theorem Short.quiet (h : s.Short rest) : s.Quiet := by
  rcases herror : s.error with _ | error
  · exact quiet_of_length (h herror).open_line
  · exact quiet_of_error herror

theorem Short.feed (h : s.Short (b :: rest)) : (s.feed b).Short rest := by
  obtain ⟨frames, cutter, _ | error⟩ := s
  · have hfeed := (h rfl).feed
    unfold Cutting.feed
    dsimp only at hfeed ⊢
    rcases hstep : cutter.feed b with next | bytes | error <;> rw [hstep] at hfeed
    · exact fun _ => hfeed
    · exact fun _ => hfeed
    · exact nofun
  · exact nofun

theorem Short.foldl_feed (h : s.Short (bytes ++ rest)) : (bytes.foldl Cutting.feed s).Short rest := by
  induction bytes generalizing s with
  | nil => exact h
  | cons b bytes ih => exact ih h.feed

/-- Then the reads in which the bytes arrive make no difference. -/
theorem Short.foldl_read {reads : List Bytes} (h : s.Short reads.flatten) :
    reads.foldl Cutting.read s = reads.flatten.foldl Cutting.feed s := by
  induction reads generalizing s with
  | nil => rfl
  | cons bytes reads ih =>
    have hrest : (bytes.foldl Cutting.feed s).Short reads.flatten := h.foldl_feed
    have hread : s.read bytes = bytes.foldl Cutting.feed s := hrest.quiet
    rw [List.foldl_cons, hread, ih hrest, List.flatten_cons, List.foldl_append]

end Cutting

/-- However a stream without long lines arrives, the same is cut from it as from one read. -/
theorem foldl_read_eq {stream : Bytes} (h : ∀ line ∈ lines stream, line.length ≤ maxLine)
    {reads : List Bytes} (hreads : reads.flatten = stream) :
    reads.foldl Cutting.read {} = stream.foldl Cutting.feed {} := by
  subst hreads
  exact Cutting.Short.foldl_read fun _ => ⟨rfl, h⟩

theorem reads_flatten {limit : Nat} {bytes : Bytes} (h : bytes.length ≤ limit * readSize) :
    (reads limit bytes).flatten = bytes := by
  induction limit generalizing bytes with
  | zero =>
    rw [Nat.zero_mul] at h
    exact (List.eq_nil_of_length_eq_zero (Nat.le_zero.mp h)).symm
  | succ limit ih =>
    unfold reads
    by_cases hempty : bytes.isEmpty
    · rw [if_pos hempty]
      exact (List.isEmpty_iff.mp hempty).symm
    · have hrest : (bytes.drop readSize).length ≤ limit * readSize := by
        rw [Nat.succ_mul] at h
        rw [List.length_drop]
        omega
      rw [if_neg hempty, List.flatten_cons, ih hrest, List.take_append_drop]

/-- The reads of all chunks bring the bytes of all chunks. -/
theorem flatMap_reads_flatten (chunks : List Bytes) :
    (chunks.flatMap fun chunk => reads (chunk.length / readSize + 1) chunk).flatten = chunks.flatten := by
  induction chunks with
  | nil => rfl
  | cons chunk chunks ih =>
    have hsize : chunk.length ≤ (chunk.length / readSize + 1) * readSize :=
      Nat.le_of_lt (Nat.lt_mul_of_div_lt (Nat.lt_succ_self _) (by decide))
    rw [List.flatMap_cons, List.flatten_append, ih, reads_flatten hsize, List.flatten_cons]

/-- The frames of a stream without long lines, cut in one go. -/
theorem ofChunks_eq {stream : Bytes} (h : ∀ line ∈ lines stream, line.length ≤ maxLine)
    {chunks : List Bytes} (hchunks : chunks.flatten = stream) :
    ofChunks chunks = (stream.foldl Cutting.feed {}).outcome := by
  rw [← foldl_read_eq h ((flatMap_reads_flatten chunks).trans hchunks)]
  rfl

/-- The reads in which a stream arrives make no difference as long as no line is too long. The
receivings bring the same frames and then the same error, namely those into which the stream is cut,
and every byte of the stream is in one of the returned frames or still unread behind them. -/
theorem arrival_independent (stream : Bytes) (h : ∀ line ∈ lines stream, line.length ≤ maxLine) :
    ∃ frames error, ∀ (arrivals : List Bytes) (hne : [] ∉ arrivals), arrivals.flatten = stream →
      ofChunks arrivals = (frames, error) ∧
      ∀ n, (Intake.calls n ⟨[], arrivals, hne⟩).1 = Intake.answers error frames n ∧
        ((Intake.calls n ⟨[], arrivals, hne⟩).1.filterMap Except.toOption).flatten ++
          (Intake.calls n ⟨[], arrivals, hne⟩).2.unread = stream := by
  refine ⟨(stream.foldl Cutting.feed {}).outcome.1, (stream.foldl Cutting.feed {}).outcome.2,
    fun arrivals hne harrivals => ⟨ofChunks_eq h harrivals, fun n => ⟨?_, ?_⟩⟩⟩
  · have hcutting : Intake.cutting ⟨[], arrivals, hne⟩ = stream.foldl Cutting.feed {} :=
      foldl_read_eq h harrivals
    rw [Intake.calls_results, hcutting]
  · exact (Intake.calls_lossless n _).trans harrivals

/-- A string that ends in a carriage return, and reads that end within the break before it and within
the one after it. -/
theorem arrival_independent_split_breaks :
    (∀ line ∈ lines (Octet.ofText "* 1 \x7b3\x7d\r\nab\r\r\nA1 OK\r\n"), line.length ≤ maxLine) ∧
    (Intake.calls 3 ⟨[], [Octet.ofText "* 1 \x7b3\x7d\r", Octet.ofText "\nab\r\r",
        Octet.ofText "\nA1 OK\r\n"], by decide⟩).1 =
      [.ok (Octet.ofText "* 1 \x7b3\x7d\r\nab\r\r\n"), .ok (Octet.ofText "A1 OK\r\n"), .error .closed] := by
  have hlines : ∀ line ∈ lines (Octet.ofText "* 1 \x7b3\x7d\r\nab\r\r\nA1 OK\r\n"),
      line.length ≤ maxLine := by
    decide +kernel
  refine ⟨hlines, ?_⟩
  obtain ⟨frames, error, hcut⟩ := arrival_independent _ hlines
  obtain ⟨hframes, hcalls⟩ := hcut [Octet.ofText "* 1 \x7b3\x7d\r", Octet.ofText "\nab\r\r",
    Octet.ofText "\nA1 OK\r\n"] (by decide) (by decide +kernel)
  rw [(hcalls 3).1]
  have houtcome : (frames, error) =
      ([Octet.ofText "* 1 \x7b3\x7d\r\nab\r\r\n", Octet.ofText "A1 OK\r\n"], .closed) :=
    hframes.symm.trans (by decide +kernel)
  cases houtcome
  rfl

/-- The bound counts the line break: if the text of a line alone is as long as a line may be, a read
that ends within its break loses the line. -/
theorem split_break_loses {text : Bytes} (hlength : text.length = maxLine)
    (hopen : ∀ i, ¬ BreaksAt (text ++ [Octet.cr]) i)
    (hplain : announced (text ++ [Octet.cr] ++ [Octet.lf]) = none) :
    ([text ++ [Octet.cr], [Octet.lf]].foldl Cutting.read {}).outcome = ([], .lineTooLong) ∧
      ([text ++ [Octet.cr] ++ [Octet.lf]].foldl Cutting.read {}).outcome =
        ([text ++ [Octet.cr] ++ [Octet.lf]], .closed) := by
  constructor
  · have hlong : maxLine < (text ++ [Octet.cr]).length := by
      rw [List.length_append, hlength]
      exact Nat.lt_succ_self _
    have hcut : (inLine [] []).cut (text ++ [Octet.cr]) = _ := cut_open hopen
    have hlost :
        (Intake.cutting ⟨text ++ [Octet.cr], [[Octet.lf]], by simp⟩).outcome = ([], .lineTooLong) :=
      Intake.outcome_of_long hcut rfl hlong
    exact hlost
  · have hbreak : BreaksAt (text ++ [Octet.cr] ++ [Octet.lf]) maxLine := by
      rw [← hlength]
      simp [BreaksAt]
    have hfirst : ∀ i < maxLine, ¬ BreaksAt (text ++ [Octet.cr] ++ [Octet.lf]) i := fun i hi =>
      mt (breaksAt_append (by rw [List.length_append, hlength]; exact Nat.succ_lt_succ hi)).mp (hopen i)
    have hcut : (inLine [] []).cut (text ++ [Octet.cr] ++ [Octet.lf]) = _ :=
      cut_line hbreak hfirst (by simp [hlength])
    rw [hplain] at hcut
    rw [List.foldl_cons, Cutting.read, Cutting.foldl_feed_frame rfl hcut]
    rfl

end Mailroom.Frame
