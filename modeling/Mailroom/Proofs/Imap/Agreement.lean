import Mathlib.Data.List.TakeWhile
import Mailroom.Proofs.Imap.Pieces
import Mailroom.Proofs.Imap.Receiving
import Mailroom.Proofs.Imap.Strings

/-! Frames and the reader of responses.

The cutter decides how far a response goes, and the reader of responses, who goes over the same bytes
once more, finds the strings of announced length for himself. `watched` reads a string only if the
cutter found it as well. Two readers `Agree` on a frame if, wherever the cutter is within a line, they
do the same, leave the cutter within a line and never miss bytes, and each reader agrees with what it
becomes when its strings are watched. `read_follows_cutter` is what that comes to for a response. -/
namespace Mailroom
open Mailroom.Frame Mailroom.Cursor

namespace Cursor

/-- Reads a string of announced length, but raises `alarm` unless the cutter found it in the frame. -/
def watched (alarm : Fault) (frame : Bytes) : Reader Value := fun c =>
  match literal c with
  | .ok (.literal bytes, d) =>
    if HasString frame (d.position - bytes.length) bytes then .ok (.literal bytes, d) else .error alarm
  | other => other

/-- The fault is that the frame has too few bytes for a string, or that no frame could have enough. -/
inductive Overrun (frame : Bytes) : Fault → Prop
  | truncated (position : Nat) : Overrun frame (.malformed position .truncated)
  | overflow (h : frame.length < UInt64.size) : Overrun frame (.unreadable .lengthOverflow)

section
variable {α β : Type} {frame : Bytes} {c : Cursor} {r r' : Reader α} {next next' : α → Reader β}

theorem bind_apply (r : Reader α) (next : α → Reader β) (c : Cursor) :
    (r >>= next) c = match r c with
      | .ok (a, d) => next a d
      | .error fault => .error fault := by
  rcases h : r c with fault | ⟨a, d⟩ <;> simp only [bind, StateT.bind, Except.bind, h]

/-- What may come of reading: a place where the cutter is within a line, or a fault of the line. -/
def Sound (frame : Bytes) : Except Fault (α × Cursor) → Prop
  | .ok (_, d) => Aligned frame d
  | .error fault => ¬ Overrun frame fault

/-- Both readers do the same here, and what comes of it is sound. -/
structure AgreeAt (frame : Bytes) (c : Cursor) (r r' : Reader α) : Prop where
  same : r' c = r c
  sound : Sound frame (r c)

/-- Both readers do the same wherever the cutter is within a line, and what comes of it is sound. -/
def Agree (frame : Bytes) (r r' : Reader α) : Prop := ∀ c, Aligned frame c → AgreeAt frame c r r'

theorem AgreeAt.bind (h : AgreeAt frame c r r') (hnext : ∀ a, Agree frame (next a) (next' a)) :
    AgreeAt frame c (r >>= next) (r' >>= next') := by
  obtain ⟨hsame, hsound⟩ := h
  rcases hr : r c with fault | ⟨a, d⟩ <;> rw [hr] at hsame hsound
  · constructor
    · rw [bind_apply, bind_apply, hr, hsame]
    · rw [bind_apply, hr]
      exact hsound
  · have hrest := hnext a d hsound
    constructor
    · rw [bind_apply, bind_apply, hr, hsame]
      exact hrest.same
    · rw [bind_apply, hr]
      exact hrest.sound

theorem AgreeAt.get_bind {next next' : Cursor → Reader α} (h : AgreeAt frame c (next c) (next' c)) :
    AgreeAt frame c (get >>= next) (get >>= next') :=
  ⟨h.same, h.sound⟩

theorem AgreeAt.ite {p : Prop} [Decidable p] {s s' : Reader α} (h : p → AgreeAt frame c r r')
    (h' : ¬ p → AgreeAt frame c s s') : AgreeAt frame c (if p then r else s) (if p then r' else s') := by
  by_cases hp : p
  · rw [if_pos hp, if_pos hp]
    exact h hp
  · rw [if_neg hp, if_neg hp]
    exact h' hp

theorem Agree.bind (h : Agree frame r r') (hnext : ∀ a, Agree frame (next a) (next' a)) :
    Agree frame (r >>= next) (r' >>= next') :=
  fun c hc => (h c hc).bind hnext

theorem Agree.pure (a : α) : Agree frame (Pure.pure a : Reader α) (Pure.pure a) := fun _ hc => ⟨rfl, hc⟩

theorem Agree.map (f : α → β) (h : Agree frame r r') : Agree frame (f <$> r) (f <$> r') := by
  rw [map_eq_pure_bind, map_eq_pure_bind]
  exact h.bind fun a => .pure (f a)

theorem agree_fail {reason : Reason} (h : reason ≠ .truncated) :
    Agree frame (fail reason : Reader α) (fail reason) := by
  refine fun c _ => ⟨rfl, ?_⟩
  rintro ⟨⟩
  exact h rfl

theorem agree_get {next next' : Cursor → Reader α} (h : ∀ c, Agree frame (next c) (next' c)) :
    Agree frame (get >>= next) (get >>= next') :=
  fun c hc => .get_bind (h c c hc)

/-! ### Readers of single bytes and of runs -/

theorem next_cases (byte : UInt8) (c : Cursor) :
    (∃ position rest, c = ⟨position, byte :: rest⟩) ∨ c.isNext byte = false := by
  obtain ⟨position, _ | ⟨b, rest⟩⟩ := c
  · exact .inr rfl
  · by_cases hb : b = byte
    · exact .inl ⟨position, rest, by rw [hb]⟩
    · exact .inr (by simp [isNext, hb])

theorem expect_next {byte : UInt8} {position : Nat} {rest : Bytes} :
    expect byte ⟨position, byte :: rest⟩ = .ok ((), ⟨position + 1, rest⟩) := by
  simp [expect, isNext, skip]

theorem expect_other {byte : UInt8} (h : c.isNext byte = false) :
    expect byte c = .error (.malformed c.position (.expected byte)) := by
  simp [expect, h, fail]

theorem eat_next {byte : UInt8} {position : Nat} {rest : Bytes} :
    eat byte ⟨position, byte :: rest⟩ = .ok (true, ⟨position + 1, rest⟩) := by
  simp [eat, isNext, skip]

theorem eat_other {byte : UInt8} (h : c.isNext byte = false) : eat byte c = .ok (false, c) := by
  simp [eat, h]

/-- Whether the byte was next or not. -/
theorem eat_run (byte : UInt8) (c : Cursor) :
    ∃ seen d, eat byte c = .ok (seen, d) ∧ c.rest = (if seen then [byte] else []) ++ d.rest ∧
      d.position = c.position + (if seen then [byte] else []).length := by
  obtain ⟨position, rest, rfl⟩ | hother := next_cases byte c
  · exact ⟨true, _, eat_next, rfl, rfl⟩
  · exact ⟨false, c, eat_other hother, rfl, rfl⟩

theorem takeWhile_run (p : UInt8 → Bool) (c : Cursor) :
    takeWhile p c =
      .ok (c.rest.takeWhile p, ⟨c.position + (c.rest.takeWhile p).length, c.rest.dropWhile p⟩) := by
  have hdrop : (c.rest.takeWhile p ++ c.rest.dropWhile p).drop (c.rest.takeWhile p).length =
      c.rest.dropWhile p :=
    List.drop_left
  rw [List.takeWhile_append_dropWhile] at hdrop
  rw [takeWhile, skip, hdrop]

/-- A byte other than a line feed may be passed. -/
theorem aligned_next {byte : UInt8} {position : Nat} {rest : Bytes} (hbyte : byte ≠ Octet.lf)
    (h : Aligned frame ⟨position, byte :: rest⟩) : Aligned frame ⟨position + 1, rest⟩ :=
  have hbytes : StaysInLine [byte] := staysInLine_plain (by simpa using hbyte.symm)
  h.pass hbytes

theorem expect_agree {byte : UInt8} (h : byte ≠ Octet.lf) : Agree frame (expect byte) (expect byte) := by
  intro c hc
  refine ⟨rfl, ?_⟩
  obtain ⟨position, rest, rfl⟩ | hother := next_cases byte c
  · rw [expect_next]
    exact aligned_next h hc
  · rw [expect_other hother]
    exact nofun

theorem eat_agree {byte : UInt8} (h : byte ≠ Octet.lf) : Agree frame (eat byte) (eat byte) := by
  intro c hc
  refine ⟨rfl, ?_⟩
  obtain ⟨position, rest, rfl⟩ | hother := next_cases byte c
  · rw [eat_next]
    exact aligned_next h hc
  · rw [eat_other hother]
    exact hc

theorem takeWhile_agree {p : UInt8 → Bool} (h : p Octet.lf = false) :
    Agree frame (takeWhile p) (takeWhile p) := by
  intro c hc
  refine ⟨rfl, ?_⟩
  have hplain : Octet.lf ∉ c.rest.takeWhile p := fun hmem => by
    rw [List.mem_takeWhile_imp hmem] at h
    cases h
  have hsplit : Aligned frame ⟨c.position, c.rest.takeWhile p ++ c.rest.dropWhile p⟩ := by
    rwa [List.takeWhile_append_dropWhile]
  rw [takeWhile_run]
  exact hsplit.pass (staysInLine_plain hplain)

/-! ### Words and strings -/

theorem word_agree : Agree frame word word := by
  refine (takeWhile_agree (by decide)).bind fun bytes => ?_
  split
  · exact agree_fail nofun
  · rcases Utf8.strict? bytes with _ | text
    · exact agree_fail nofun
    · exact .pure text

theorem restOfLine_agree : Agree frame restOfLine restOfLine :=
  (takeWhile_agree (by decide)).bind fun bytes => .pure (Utf8.lossy bytes)

theorem atom_agree : Agree frame atom atom := by
  refine (takeWhile_agree (by decide)).bind fun bytes => ?_
  split
  · exact agree_fail nofun
  · exact .pure (ofWord bytes)

/-- A quoted string holds a line feed only behind a backslash. -/
theorem quotedFrom_sound {position : Nat} {taken bytes : Bytes} (h : Aligned frame ⟨position, bytes⟩) :
    Sound frame (quotedFrom position taken bytes) := by
  fun_induction quotedFrom position taken bytes with
  | case1 => exact nofun
  | case2 position taken rest =>
    exact aligned_next (by decide) h
  | case3 => exact nofun
  | case4 position taken escaped rest hquote ih =>
    -- Even a line feed may be escaped: what stands before it is the backslash.
    exact ih (h.pass (staysInLine_escape escaped))
  | case5 position taken b rest hquote hback hb ih =>
    refine ih (aligned_next ?_ h)
    rintro rfl
    cases hb
  | case6 => exact nofun

theorem quoted_agree : Agree frame quoted quoted := by
  refine (expect_agree (by decide)).bind fun _ =>
    Agree.bind (fun c hc => ⟨rfl, quotedFrom_sound hc⟩) fun bytes => ?_
  exact .pure (Value.quoted bytes)

/-! ### Strings of announced length -/

/-- The rest of an announcement after its digits, or the byte that should have come. -/
theorem expect_end (reader : Reader α) (c : Cursor) :
    (∃ position byte, (do expect Octet.closeBrace; expect Octet.cr; expect Octet.lf; reader) c =
        .error (.malformed position (.expected byte))) ∨
      ∃ position rest, c = ⟨position, Octet.closeBrace :: Octet.cr :: Octet.lf :: rest⟩ ∧
        (do expect Octet.closeBrace; expect Octet.cr; expect Octet.lf; reader) c =
          reader ⟨position + 3, rest⟩ := by
  rw [bind_apply]
  obtain ⟨position, rest, rfl⟩ | hother := next_cases Octet.closeBrace c
  · rw [expect_next]
    dsimp only
    rw [bind_apply]
    obtain ⟨-, rest, ⟨⟩⟩ | hother := next_cases Octet.cr ⟨position + 1, rest⟩
    · rw [expect_next]
      dsimp only
      rw [bind_apply]
      obtain ⟨-, rest, ⟨⟩⟩ | hother := next_cases Octet.lf ⟨position + 1 + 1, rest⟩
      · rw [expect_next]
        exact .inr ⟨position, rest, rfl, rfl⟩
      · rw [expect_other hother]
        exact .inl ⟨_, _, rfl⟩
    · rw [expect_other hother]
      exact .inl ⟨_, _, rfl⟩
  · rw [expect_other hother]
    exact .inl ⟨_, _, rfl⟩

/-- What comes of reading a string: the fault of a line that announces none here, or what comes of
taking as many bytes as are announced. -/
theorem literal_cases (c : Cursor) :
    (∃ position reason, literal c = .error (.malformed position reason) ∧ reason ≠ .truncated) ∨
      ∃ signed digits n rest, c.rest = mark signed digits ++ [Octet.cr] ++ Octet.lf :: rest ∧
        Octet.number? UInt64.size digits = some n ∧
        literal c = (take n >>= fun bytes => pure (Value.literal bytes))
          ⟨c.position + (mark signed digits).length + 2, rest⟩ := by
  unfold literal
  rw [bind_apply]
  obtain ⟨position, rest, rfl⟩ | hother := next_cases Octet.openBrace c
  · rw [expect_next]
    dsimp only
    rw [bind_apply, takeWhile_run]
    dsimp only
    rcases hn : Octet.number? UInt64.size (rest.takeWhile Octet.isDigit) with _ | n
    · exact .inl ⟨_, _, rfl, by simp⟩
    · obtain ⟨signed, d, heat, hrest, hposition⟩ := eat_run Octet.plus
        ⟨position + 1 + (rest.takeWhile Octet.isDigit).length, rest.dropWhile Octet.isDigit⟩
      dsimp only at hrest hposition ⊢
      rw [bind_apply, heat]
      dsimp only
      obtain ⟨_, _, hend⟩ | ⟨finish, bytes, rfl, hend⟩ :=
        expect_end (take n >>= fun bytes => pure (Value.literal bytes)) d
      · exact .inl ⟨_, _, hend, by simp⟩
      · refine .inr ⟨signed, rest.takeWhile Octet.isDigit, n, bytes, ?_, hn, ?_⟩
        · have hsplit : rest.takeWhile Octet.isDigit ++ rest.dropWhile Octet.isDigit = rest :=
            List.takeWhile_append_dropWhile
          rw [hrest] at hsplit
          simp only [mark, List.cons_append, List.append_assoc, List.nil_append, hsplit]
        · have hfinish :
              finish + 3 = position + (mark signed (rest.takeWhile Octet.isDigit)).length + 2 := by
            simp only [mark, List.length_cons, List.length_append, List.length_nil]
            dsimp only at hposition
            omega
          rw [hend, hfinish]
  · rw [expect_other hother]
    exact .inl ⟨_, _, rfl, by simp⟩

theorem take_run {n position : Nat} {rest : Bytes} (h : n ≤ rest.length) :
    take n ⟨position, rest⟩ =
      if position + n < UInt64.size then .ok (rest.take n, ⟨position + n, rest.drop n⟩)
      else .error (.unreadable .lengthOverflow) := by
  have hlength : ¬ (rest.take n).length < n := by
    rw [List.length_take_of_le h]
    exact Nat.lt_irrefl n
  simp only [take, hlength, if_false, skip]

/-- Where a string is read the cutter has found it. -/
theorem literal_agree (alarm : Fault) (hwhole : Whole frame) :
    Agree frame literal (watched alarm frame) := by
  intro c hc
  rcases literal_cases c with ⟨position, reason, hrun, hreason⟩ | ⟨signed, digits, n, rest, hrest, hn, hrun⟩
  · constructor
    · rw [watched, hrun]
    · rw [hrun]
      rintro ⟨⟩
      exact hreason rfl
  · -- The announcement is one of the cutter, so the string is there, and behind it they are aligned.
    obtain ⟨position, bytes⟩ := c
    obtain rfl : bytes = _ := hrest
    obtain ⟨hle, hstring, haligned⟩ := Aligned.string hwhole hn hc
    dsimp only at hrun
    rw [bind_apply, take_run hle] at hrun
    by_cases hfits : position + (mark signed digits).length + 2 + n < UInt64.size
    · rw [if_pos hfits] at hrun
      constructor
      · have hstart : position + (mark signed digits).length + 2 + n - (rest.take n).length =
            position + (mark signed digits).length + 2 := by
          rw [List.length_take_of_le hle, Nat.add_sub_cancel]
        rw [watched, hrun]
        refine if_pos ?_
        show HasString frame (position + (mark signed digits).length + 2 + n - (rest.take n).length) _
        rwa [hstart]
      · rw [hrun]
        exact haligned
    · rw [if_neg hfits] at hrun
      constructor
      · rw [watched, hrun]
      · rw [hrun]
        rintro ⟨⟩
        have hfrom := haligned.position_le
        dsimp only at hfrom
        omega

/-! ### Values -/

section
variable {one one' : Reader Value}

theorem valuesFrom_agree (h : Agree frame one one') {close : UInt8} (hclose : close ≠ Octet.lf)
    (limit : Nat) (taken : List Value) :
    Agree frame (valuesFrom one close limit taken) (valuesFrom one' close limit taken) := by
  induction limit generalizing taken with
  | zero => exact agree_fail nofun
  | succ limit ih =>
    refine (takeWhile_agree (by decide)).bind fun _ => (eat_agree hclose).bind fun closed => ?_
    split
    · exact .pure taken.reverse
    · refine agree_get fun c => ?_
      split
      · exact agree_fail nofun
      · exact h.bind fun v => ih (v :: taken)

theorem valuesUntil_agree (h : Agree frame one one') {close : UInt8} (hclose : close ≠ Octet.lf) :
    Agree frame (valuesUntil one close) (valuesUntil one' close) :=
  fun c hc =>
    have hfrom := valuesFrom_agree h hclose (c.rest.length + 1) [] c hc
    ⟨hfrom.same, hfrom.sound⟩

theorem bracket_agree {one one' : Option (Reader Value)} (h : Option.Rel (Agree frame) one one')
    {opening close : UInt8} (hopening : opening ≠ Octet.lf) (hclose : close ≠ Octet.lf)
    (make : List Value → Value) {position : Nat} {rest : Bytes}
    (hc : Aligned frame ⟨position, opening :: rest⟩) :
    AgreeAt frame ⟨position, opening :: rest⟩ (bracket one close make) (bracket one' close make) := by
  have hinside : Aligned frame ⟨position + 1, rest⟩ := aligned_next hopening hc
  cases h with
  | none => exact ⟨rfl, nofun⟩
  | some h =>
    have hvalues := (valuesUntil_agree h hclose).map make _ hinside
    exact ⟨hvalues.same, hvalues.sound⟩

variable {announced announced' : Reader Value}

theorem valueBy_agree (h : Agree frame announced announced') {one one' : Option (Reader Value)}
    (hone : Option.Rel (Agree frame) one one') :
    Agree frame (valueBy announced one) (valueBy announced' one') := by
  rintro ⟨position, _ | ⟨b, rest⟩⟩ hc
  · exact ⟨rfl, nofun⟩
  · have hend : Agree frame (fail .endOfLine : Reader Value) (fail .endOfLine) := agree_fail nofun
    unfold valueBy
    refine .get_bind ?_
    refine .ite (fun hb => ?_) fun _ => .ite (fun hb => ?_) fun _ =>
      .ite (fun _ => quoted_agree _ hc) fun _ => .ite (fun _ => h _ hc) fun _ => .ite (fun _ => atom_agree _ hc) fun _ => hend _ hc
    · exact bracket_agree hone (by rw [hb]; decide) (by decide) .list hc
    · exact bracket_agree hone (by rw [hb]; decide) (by decide) .bracketed hc

theorem valueWithin_agree (h : Agree frame announced announced') (depth : Nat) :
    Agree frame (valueWithin announced depth) (valueWithin announced' depth) := by
  induction depth with
  | zero => exact valueBy_agree h .none
  | succ depth ih => exact valueBy_agree h (.some ih)

theorem value_agree (h : Agree frame announced announced') :
    Agree frame (value announced) (value announced') :=
  valueWithin_agree h maxDepth

theorem values_agree (h : Agree frame announced announced') {close : UInt8} (hclose : close ≠ Octet.lf) :
    Agree frame (values announced close) (values announced' close) :=
  valuesUntil_agree (value_agree h) hclose

theorem string_agree (h : Agree frame announced announced') :
    Agree frame (string announced) (string announced') := by
  refine agree_get fun c => ?_
  split
  · exact value_agree h
  · refine (takeWhile_agree (by decide)).bind fun bytes => ?_
    split
    · exact agree_fail nofun
    · exact .pure (Value.atom (Utf8.lossy bytes))

end

end

end Cursor

/-! ### Responses -/

namespace Response
variable {α : Type} {frame : Bytes}

theorem reject_agree {reason : Reason} (h : reason ≠ .truncated) :
    Agree frame (reject reason : Reader α) (reject reason) := by
  refine fun c _ => ⟨rfl, ?_⟩
  rintro ⟨⟩
  exact h rfl

/-- What is found once the pieces are understood is never that bytes are missing. -/
theorem understood_agree {x : Except Reason α} (h : x ≠ .error .truncated) :
    Agree frame (understood x) (understood x) := by
  rcases x with reason | a
  · exact reject_agree fun heq => h (heq ▸ rfl)
  · exact .pure a

section
variable {announced announced' : Reader Value} (h : Agree frame announced announced')
include h

theorem codeAndText_agree : Agree frame (codeAndText announced) (codeAndText announced') := by
  refine (eat_agree (by decide)).bind fun _ => (eat_agree (by decide)).bind fun found => ?_
  split
  · exact (values_agree h (by decide)).bind fun inside => (eat_agree (by decide)).bind fun _ =>
      restOfLine_agree.bind fun text => .pure _
  · exact restOfLine_agree.bind fun text => .pure _

theorem spacedList_agree : Agree frame (spacedList announced) (spacedList announced') :=
  (expect_agree (by decide)).bind fun _ => (expect_agree (by decide)).bind fun _ =>
    values_agree h (by decide)

theorem listing_agree : Agree frame (listing announced) (listing announced') := by
  refine (spacedList_agree h).bind fun attributes => (expect_agree (by decide)).bind fun _ =>
    (value_agree h).bind fun delimiter => (expect_agree (by decide)).bind fun _ =>
    (string_agree h).bind fun name => ?_
  rcases name.text? with _ | written
  · exact reject_agree nofun
  · dsimp only
    rcases MailboxName.decode written with _ | name
    · exact fun c _ => ⟨rfl, nofun⟩
    · exact .pure _

theorem numbered_agree (n : Nat) : Agree frame (numbered announced n) (numbered announced' n) := by
  refine (expect_agree (by decide)).bind fun _ => word_agree.bind fun keyword => ?_
  dsimp only
  split
  · exact .pure _
  · exact .pure _
  · exact .pure _
  · exact (spacedList_agree h).bind fun items =>
      (understood_agree (FetchItem.readAll_untruncated items)).bind fun items => .pure _
  · exact .pure _

theorem keyed_agree (keyword : String) :
    Agree frame (keyed announced keyword) (keyed announced' keyword) := by
  unfold keyed
  split
  · exact restOfLine_agree.bind fun rest => .pure _
  · exact (listing_agree h).bind fun entry => .pure _
  · exact (listing_agree h).bind fun entry => .pure _
  · exact restOfLine_agree.bind fun rest =>
      (understood_agree (found_untruncated rest)).bind fun found => .pure _
  · exact (spacedList_agree h).bind fun flags => .pure _
  · exact .pure _

theorem untaggedData_agree : Agree frame (untaggedData announced) (untaggedData announced') := by
  refine word_agree.bind fun first => ?_
  rcases Decimal.unsigned? UInt32.size first with _ | n
  · dsimp only
    rcases Condition.read? first with _ | condition
    · exact keyed_agree h _
    · exact (codeAndText_agree h).bind fun _ => .pure _
  · exact numbered_agree h n

theorem completion_agree (tag : String) :
    Agree frame (completion announced tag) (completion announced' tag) := by
  refine word_agree.bind fun word => ?_
  rcases Condition.read? word with _ | condition
  · exact reject_agree nofun
  · exact (codeAndText_agree h).bind fun _ => .pure _

theorem response_agree : Agree frame (response announced) (response announced') := by
  refine (eat_agree (by decide)).bind fun more => ?_
  split
  · exact (eat_agree (by decide)).bind fun _ => restOfLine_agree.bind fun text => .pure _
  · refine word_agree.bind fun tag => (expect_agree (by decide)).bind fun _ => ?_
    split
    · exact (untaggedData_agree h).bind fun data => .pure _
    · exact completion_agree h tag

end

end Response

/-- Response reader and cutter agree on strings. No response that a receiver returns lacks bytes for a
string, and reading one never raises an alarm that is set on every string but those that the cutter
found in it, at their places, of their lengths and with their bytes. -/
theorem read_follows_cutter {s : Intake} {n : Nat} {frame : Bytes}
    (h : .ok frame ∈ (Intake.calls n s).1) :
    (∀ position, Response.read frame ≠ .error (.malformed position .truncated)) ∧
      (frame.length < UInt64.size → Response.read frame ≠ .error (.unreadable .lengthOverflow)) ∧
      ∀ alarm, Response.response (watched alarm frame) (Cursor.ofBytes frame) =
        Response.response literal (Cursor.ofBytes frame) := by
  have hagree : ∀ alarm, AgreeAt frame (Cursor.ofBytes frame) (Response.response literal)
      (Response.response (watched alarm frame)) := fun alarm =>
    Response.response_agree (literal_agree alarm (Intake.calls_whole n s h)) _ (Aligned.start frame)
  have hfault : ∀ fault, Response.read frame = .error fault → ¬ Overrun frame fault := by
    intro fault hread
    have hsound := (hagree fault).sound
    unfold Response.read at hread
    rcases hrun : Response.response literal (Cursor.ofBytes frame) with fault' | ⟨response, d⟩ <;>
      rw [hrun] at hread hsound
    · cases hread
      exact hsound
    · cases hread
  exact ⟨fun position hread => hfault _ hread (.truncated position),
    fun hlength hread => hfault _ hread (.overflow hlength), fun alarm => (hagree alarm).same⟩

/-- Flags among which a string is one line break, which arrives in two reads. -/
theorem read_follows_cutter_flags :
    .ok (Octet.ofText "* FLAGS (\x7b2\x7d\r\n\r\n)\r\n") ∈
        (Intake.calls 1 ⟨[], [Octet.ofText "* FLAGS (\x7b2\x7d\r\n\r", Octet.ofText "\n)\r\n"],
          by decide⟩).1 ∧
      ∀ alarm, Response.response (watched alarm (Octet.ofText "* FLAGS (\x7b2\x7d\r\n\r\n)\r\n"))
          (Cursor.ofBytes (Octet.ofText "* FLAGS (\x7b2\x7d\r\n\r\n)\r\n")) =
        Response.response literal (Cursor.ofBytes (Octet.ofText "* FLAGS (\x7b2\x7d\r\n\r\n)\r\n")) := by
  have hreturned : .ok (Octet.ofText "* FLAGS (\x7b2\x7d\r\n\r\n)\r\n") ∈
      (Intake.calls 1 ⟨[], [Octet.ofText "* FLAGS (\x7b2\x7d\r\n\r", Octet.ofText "\n)\r\n"],
        by decide⟩).1 := by
    rw [Intake.calls_results]
    decide +kernel
  exact ⟨hreturned, (read_follows_cutter hreturned).2.2⟩

/-- If the cutter had found no string in it, the alarm would be raised. -/
example : (Response.response (watched (.unreadable .mailboxName) [])
    (Cursor.ofBytes (Octet.ofText "* FLAGS (\x7b2\x7d\r\n\r\n)\r\n"))).map (fun _ => ()) =
      .error (.unreadable .mailboxName) := by
  decide +kernel

end Mailroom
