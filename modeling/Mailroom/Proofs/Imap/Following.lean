import Mailroom.Proofs.Imap.Marks
import Mailroom.Proofs.Imap.Scanning

/-! Scanners and readers of cursors, side by side.

A scanner `Follows` a reader if from every position of the line both come to the same, on the actual host
and on the ideal one. They may differ in two ways only, which `SideBySide` lists: where a string would end
beyond all addresses, and where a mailbox name cannot be decoded. Joined scanners follow joined readers;
so each function of the scanner is shown to follow the function of the reader that it stands for, in the
order of their definition. -/
namespace Mailroom
open Mailroom.Frame

/-- The cursor at a position of a line. -/
def Cursor.within (input : Bytes) (position : Nat) : Cursor := ⟨position, input.drop position⟩

/-! ### What readers do within a line -/

section
variable {input : Bytes} {position : Nat} {byte b : UInt8} {p : UInt8 → Bool}

namespace Cursor

theorem within_isNext : (within input position).isNext byte = true ↔ input[position]? = some byte := by
  rw [isNext, within, List.head?_drop, beq_iff_eq]

theorem within_skip (n : Nat) : (within input position).skip n = within input (position + n) := by
  rw [skip, within, List.drop_drop]
  rfl

theorem within_end (h : input[position]? = none) : within input position = ⟨position, []⟩ := by
  rw [within, List.drop_eq_nil_of_le (List.getElem?_eq_none_iff.mp h)]

theorem within_next (h : input[position]? = some b) :
    within input position = ⟨position, b :: input.drop (position + 1)⟩ := by
  rw [within, Scanner.drop_eq_cons h]

theorem eat_within :
    eat byte (within input position) =
      if input[position]? = some byte then .ok (true, within input (position + 1))
      else .ok (false, within input position) := by
  simp only [eat, within_isNext, within_skip]

theorem expect_within :
    expect byte (within input position) =
      if input[position]? = some byte then .ok ((), within input (position + 1))
      else .error (.malformed position (.expected byte)) := by
  simp only [expect, within_isNext, within_skip]
  rfl

theorem takeWhile_within :
    takeWhile p (within input position) =
      .ok (Scanner.taken input position p,
        within input (position + (Scanner.taken input position p).length)) := by
  rw [takeWhile, within_skip]
  rfl

/-- The bytes of a quoted string after its opening mark. -/
def quotedTail (taken : Bytes) : Reader Bytes := fun c => quotedFrom c.position taken c.rest

theorem quotedTail_within (taken : Bytes) (hb : input[position]? = some b) :
    quotedTail taken (within input position) =
      if b = Octet.quote then .ok (taken.reverse, within input (position + 1))
      else if b = Octet.backslash then
        match input[position + 1]? with
        | none => .error (.malformed (position + 1) .danglingEscape)
        | some escaped => quotedTail (escaped :: taken) (within input (position + 2))
      else if inLine b then quotedTail (b :: taken) (within input (position + 1))
      else .error (.malformed position .unterminated) := by
  show quotedFrom position taken (input.drop position) = _
  rw [Scanner.drop_eq_cons hb, quotedFrom.eq_def]
  dsimp only
  split
  · rfl
  split
  · rcases hnext : input[position + 1]? with _ | escaped
    · rw [List.drop_eq_nil_of_le (List.getElem?_eq_none_iff.mp hnext)]
    · rw [Scanner.drop_eq_cons hnext]
      rfl
  · rfl

theorem take_within {n : Nat} (hposition : position ≤ input.length) :
    take n (within input position) =
      if position + n < UInt64.size then
        if input.length < position + n then .error (.malformed position .truncated)
        else .ok ((input.drop position).take n, within input (position + n))
      else .error (.unreadable .lengthOverflow) := by
  have hlength : (((input.drop position).take n).length < n) = (input.length < position + n) := by
    rw [List.length_take, List.length_drop, eq_iff_iff]
    omega
  simp only [take, within_skip]
  simp only [within, hlength]
  rfl

section
variable {one : Option (Reader Value)}

theorem valueBy_end (h : input[position]? = none) :
    valueBy literal one (within input position) = fail .endOfLine (within input position) := by
  rw [within_end h]
  rfl

theorem valueBy_next (h : input[position]? = some b) :
    valueBy literal one (within input position) =
      (if b = Octet.openParen then bracket one Octet.closeParen .list
        else if b = Octet.openBracket then bracket one Octet.closeBracket .bracketed
        else if b = Octet.quote then quoted
        else if b = Octet.openBrace then literal
        else if inLine b then atom
        else fail .endOfLine) (within input position) := by
  rw [within_next h]
  rfl

end

/-! What has been passed, once a reader has gone on. -/
section
variable {position' : Nat} {bytes : Bytes}

theorem within_inj (h : within input position = within input position') : position = position' :=
  congrArg Cursor.position h

theorem expect_passed {u : Unit} (h : expect byte (within input position) = .ok (u, within input position')) :
    input.drop position = byte :: input.drop position' := by
  rw [expect_within] at h
  split at h
  next hnext =>
    simp only [Except.ok.injEq, Prod.mk.injEq] at h
    rw [← within_inj h.2]
    exact Scanner.drop_eq_cons hnext
  next => cases h

theorem eat_passed {seen : Bool}
    (h : eat byte (within input position) = .ok (seen, within input position')) :
    input.drop position = (if seen then [byte] else []) ++ input.drop position' := by
  rw [eat_within] at h
  split at h
  next hnext =>
    simp only [Except.ok.injEq, Prod.mk.injEq] at h
    rw [← within_inj h.2, ← h.1]
    exact Scanner.drop_eq_cons hnext
  next =>
    simp only [Except.ok.injEq, Prod.mk.injEq] at h
    rw [← within_inj h.2, ← h.1]
    rfl

theorem takeWhile_passed (h : takeWhile p (within input position) = .ok (bytes, within input position')) :
    input.drop position = bytes ++ input.drop position' := by
  rw [takeWhile_within] at h
  simp only [Except.ok.injEq, Prod.mk.injEq] at h
  rw [← within_inj h.2, ← h.1]
  exact Scanner.drop_taken input position p

end

end Cursor

end

/-! ### How the outcomes of joined parts depend on those of the parts -/

/-- A string is announced right before the position, and no address is left for where it would end. -/
def Beyond (input : Bytes) (position : Nat) : Prop :=
  ∃ n, announced (input.take position) = some n ∧ UInt64.size ≤ position + n

section
variable {α β : Type}

/-- What the actual scan, the ideal scan and the reader come to, side by side. They all pass to the same
position, `low` or further on, with the same number of brackets open, or find the line at fault for the
same reason, unless the actual scan aborts. What the ideal scan has passed may have to be finished to be
what the other two have: if it cannot be, the actual scan aborts there as well. -/
inductive SideBySide (input : Bytes) (depth low : Nat) (finish : α → Option α) :
    Except Stop (α × Place) → Except Stop (α × Place) → Except Fault (α × Cursor) → Prop
  | passed {a a' : α} (position : Nat) (hfinish : finish a' = some a) (hlow : low ≤ position)
      (hline : position ≤ input.length) :
      SideBySide input depth low finish (.ok (a, ⟨position, depth⟩)) (.ok (a', ⟨position, depth⟩))
        (.ok (a, .within input position))
  | fault (position : Nat) (reason : Reason) (hline : position ≤ input.length)
      (hroom : reason = .truncated → ¬ Beyond input position) :
      SideBySide input depth low finish (.error (.fault position reason)) (.error (.fault position reason))
        (.error (.malformed position reason))
  | beyond (position : Nat) (hline : position ≤ input.length) (hbeyond : Beyond input position) :
      SideBySide input depth low finish (.error (.abort .overflow)) (.error (.fault position .truncated))
        (.error (.unreadable .lengthOverflow))
  | misnamed {a' : α} {q : Place} (hfinish : finish a' = none) :
      SideBySide input depth low finish (.error (.abort .mailboxName)) (.ok (a', q))
        (.error (.unreadable .mailboxName))

/-- The scanner and the reader come to an outcome together from a position. -/
def FollowsAt (input : Bytes) (depth low : Nat) (finish : α → Option α) (position : Nat) (s : Scanner α)
    (r : Cursor.Reader α) : Prop :=
  SideBySide input depth low finish (s ⟨input, .actual⟩ ⟨position, depth⟩)
    (s ⟨input, .ideal⟩ ⟨position, depth⟩) (r (.within input position))

/-- The scanner and the reader come to an outcome together from every position in the line, and pass
`least` bytes at least. -/
def Follows (input : Bytes) (depth least : Nat) (finish : α → Option α) (s : Scanner α)
    (r : Cursor.Reader α) : Prop :=
  ∀ position ≤ input.length, FollowsAt input depth (position + least) finish position s r

variable {input : Bytes} {depth low least position : Nat} {finish : β → Option β} {s s' : Scanner α}
  {r r' : Cursor.Reader α} {next : α → Scanner β} {next' : α → Cursor.Reader β}

namespace SideBySide
variable {low' depth' : Nat} {finish' : α → Option α} {x y : Except Stop (α × Place)}
  {z : Except Fault (α × Cursor)}

theorem mono (h : SideBySide input depth low finish' x y z) (hlow : low' ≤ low) :
    SideBySide input depth low' finish' x y z := by
  cases h with
  | passed position hfinish hpassed hline => exact .passed position hfinish (hlow.trans hpassed) hline
  | fault position reason hline hroom => exact .fault position reason hline hroom
  | beyond position hline hbeyond => exact .beyond position hline hbeyond
  | misnamed hfinish => exact .misnamed hfinish

/-- What comes after a part that was passed comes of it; all else is the outcome of the part already. -/
theorem bind {f g : α × Place → Except Stop (β × Place)} {k : α × Cursor → Except Fault (β × Cursor)}
    (h : SideBySide input depth' low' finish' x y z)
    (hpassed : ∀ a a' position, finish' a' = some a → z = .ok (a, .within input position) →
      low' ≤ position → position ≤ input.length →
        SideBySide input depth low finish (f (a, ⟨position, depth'⟩)) (g (a', ⟨position, depth'⟩))
          (k (a, .within input position)))
    (hmisnamed : ∀ a' q, finish' a' = none → ∃ b' q', g (a', q) = .ok (b', q') ∧ finish b' = none) :
    SideBySide input depth low finish (x >>= f) (y >>= g) (z >>= k) := by
  cases h with
  | passed position hfinish hlow hline => exact hpassed _ _ position hfinish rfl hlow hline
  | fault position reason hline hroom => exact .fault position reason hline hroom
  | beyond position hline hbeyond => exact .beyond position hline hbeyond
  | misnamed hfinish =>
    obtain ⟨b', q', hg, hfinish'⟩ := hmisnamed _ _ hfinish
    show SideBySide input depth low finish _ (g _) _
    rw [hg]
    exact .misnamed hfinish'

end SideBySide

theorem FollowsAt.mono {low' : Nat} {finish : α → Option α}
    (h : FollowsAt input depth low finish position s r) (hlow : low' ≤ low) : FollowsAt input depth low' finish position s r :=
  SideBySide.mono h hlow

theorem FollowsAt.bind {low' : Nat} (h : FollowsAt input depth low' some position s r)
    (hnext : ∀ a position', r (.within input position) = .ok (a, .within input position') →
      low' ≤ position' → position' ≤ input.length →
        FollowsAt input depth low finish position' (next a) (next' a)) :
    FollowsAt input depth low finish position (s >>= next) (r >>= next') := by
  refine SideBySide.bind h (fun a a' position' hfinish hr hlow hline => ?_) nofun
  cases hfinish
  exact hnext a position' hr hlow hline

/-- What comes next is looked at. -/
theorem FollowsAt.peek {finish : α → Option α} {next : Option UInt8 → Scanner α}
    (h : FollowsAt input depth low finish position (next input[position]?) r) :
    FollowsAt input depth low finish position (Scanner.peek >>= next) r := h

/-- The reader looks at the cursor itself. -/
theorem FollowsAt.look {finish : α → Option α} {next : Option UInt8 → Scanner α}
    {next' : Cursor → Cursor.Reader α}
    (h : FollowsAt input depth low finish position (next input[position]?) (next' (.within input position))) :
    FollowsAt input depth low finish position (Scanner.peek >>= next) (get >>= next') := h

theorem FollowsAt.congr {finish : α → Option α}
    (hr : r' (.within input position) = r (.within input position))
    (h : FollowsAt input depth low finish position s r) : FollowsAt input depth low finish position s r' := by
  unfold FollowsAt
  rw [hr]
  exact h

theorem Follows.bind (h : Follows input depth least some s r)
    (hnext : ∀ a, Follows input depth 0 finish (next a) (next' a)) :
    Follows input depth least finish (s >>= next) (r >>= next') :=
  fun position hposition => (h position hposition).bind fun a position' _ hlow hline =>
    (hnext a position' hline).mono (hlow.trans (Nat.le_add_right ..))

theorem Follows.relax {finish : α → Option α} (h : Follows input depth least finish s r) :
    Follows input depth 0 finish s r :=
  fun position hposition => (h position hposition).mono (Nat.le_add_right position least)

theorem FollowsAt.ite {p : Prop} [Decidable p] {finish : α → Option α}
    (h : p → FollowsAt input depth low finish position s r)
    (h' : ¬ p → FollowsAt input depth low finish position s' r') :
    FollowsAt input depth low finish position (if p then s else s') (if p then r else r') := by
  by_cases hp : p
  · rw [if_pos hp, if_pos hp]
    exact h hp
  · rw [if_neg hp, if_neg hp]
    exact h' hp

theorem Follows.ite {p : Prop} [Decidable p] {finish : α → Option α}
    (h : p → Follows input depth least finish s r) (h' : ¬ p → Follows input depth least finish s' r') :
    Follows input depth least finish (if p then s else s') (if p then r else r') :=
  fun position hposition => .ite (fun hp => h hp position hposition) fun hp => h' hp position hposition

/-- Values that are finished in the same way as what they are made of. -/
theorem Follows.map {finish' : α → Option α} {f : α → β} (h : Follows input depth least finish' s r)
    (hf : ∀ a, finish (f a) = (finish' a).map f) :
    Follows input depth least finish (s >>= fun a => pure (f a)) (r >>= fun a => pure (f a)) := by
  refine fun position hposition => SideBySide.bind (h position hposition)
    (fun a a' position' hfinish _ hlow hline => ?_) fun a' q hfinish => ?_
  · exact .passed position' (by rw [hf, hfinish]; rfl) hlow hline
  · exact ⟨f a', q, rfl, by rw [hf, hfinish]; rfl⟩

/-- A value that is finished already. -/
theorem follows_done {finish : α → Option α} {a : α} (h : finish a = some a) :
    Follows input depth 0 finish (pure a) (pure a) :=
  fun position hposition => .passed position h (Nat.le_refl _) hposition

theorem follows_pure (a : α) : Follows input depth 0 some (pure a) (pure a) := follows_done rfl

theorem followsAt_stop {reason : Reason} (h : reason ≠ .truncated) {finish : α → Option α}
    (hposition : position ≤ input.length) :
    FollowsAt input depth low finish position (Scanner.stop reason) (Cursor.fail reason) :=
  .fault position reason hposition fun heq => absurd heq h

theorem follows_stop {reason : Reason} (h : reason ≠ .truncated) {finish : α → Option α} :
    Follows input depth least finish (Scanner.stop reason) (Cursor.fail reason) :=
  fun _ hposition => followsAt_stop h hposition

theorem follows_reject {reason : Reason} (h : reason ≠ .truncated) {finish : α → Option α} :
    Follows input depth least finish (Scanner.reject reason) (Response.reject reason) :=
  fun _ _ => .fault 0 reason (Nat.zero_le _) fun heq => absurd heq h

end

/-! ### Words -/

section
variable {input : Bytes} (hshort : input.length < UInt64.size) {depth position : Nat}
include hshort

theorem eat_follows (byte : UInt8) : Follows input depth 0 some (Scanner.eat byte) (Cursor.eat byte) := by
  intro position hposition
  unfold FollowsAt
  rw [Scanner.eat_run (Host.actual_holds hshort), Scanner.eat_run (Host.ideal_holds input), Cursor.eat_within]
  split
  next h => exact .passed (position + 1) rfl (Nat.le_succ _) (List.getElem?_eq_some_iff.mp h).1
  next => exact .passed position rfl (Nat.le_refl _) hposition

theorem expect_follows (byte : UInt8) :
    Follows input depth 1 some (Scanner.expect byte) (Cursor.expect byte) := by
  intro position hposition
  unfold FollowsAt
  rw [Scanner.expect_run (Host.actual_holds hshort), Scanner.expect_run (Host.ideal_holds input),
    Cursor.expect_within]
  split
  next h => exact .passed (position + 1) rfl (Nat.le_refl _) (List.getElem?_eq_some_iff.mp h).1
  next => exact .fault position _ hposition nofun

theorem run_follows (p : UInt8 → Bool) : Follows input depth 0 some (Scanner.run p) (Cursor.takeWhile p) := by
  intro position hposition
  unfold FollowsAt
  rw [Scanner.run_run (Host.actual_holds hshort) hposition,
    Scanner.run_run (Host.ideal_holds input) hposition, Cursor.takeWhile_within]
  exact .passed _ rfl (Nat.le_add_right ..) (Scanner.taken_le hposition)

theorem someRun_follows {β : Type} {p : UInt8 → Bool} {reason : Reason} (hreason : reason ≠ .truncated)
    {next : Bytes → Scanner β} {next' : Bytes → Cursor.Reader β}
    (h : ∀ bytes, Follows input depth 0 some (next bytes) (next' bytes)) :
    Follows input depth 1 some (Scanner.someRun p reason >>= next)
      (Cursor.takeWhile p >>= fun bytes =>
        if bytes.isEmpty then Cursor.fail reason else next' bytes) := by
  intro position hposition
  unfold FollowsAt
  rw [Scanner.bind_apply, Scanner.bind_apply, Cursor.bind_apply,
    Scanner.someRun_run (Host.actual_holds hshort) hposition,
    Scanner.someRun_run (Host.ideal_holds input) hposition, Cursor.takeWhile_within]
  rcases htaken : Scanner.taken input position p with _ | ⟨b, bytes⟩
  · exact .fault position reason hposition fun heq => absurd heq hreason
  · have hend : position + (b :: bytes).length ≤ input.length := htaken ▸ Scanner.taken_le hposition
    exact (h (b :: bytes) _ hend).mono (by rw [List.length_cons]; omega)

theorem word_follows : Follows input depth 1 some Scanner.word Cursor.word := by
  refine someRun_follows hshort (by decide) fun bytes => ?_
  rcases Utf8.strict? bytes with _ | text
  · exact follows_stop (by decide)
  · exact follows_pure text

theorem restOfLine_follows : Follows input depth 0 some Scanner.restOfLine Cursor.restOfLine :=
  (run_follows hshort _).bind fun bytes => follows_pure (Utf8.lossy bytes)

theorem atom_follows : Follows input depth 1 some Scanner.atom Cursor.atom :=
  someRun_follows hshort (by decide) fun bytes => follows_pure (Cursor.ofWord bytes)

/-- One byte is passed where there is one. -/
theorem FollowsAt.step {α : Type} {low : Nat} {finish : α → Option α} {b : UInt8}
    (hb : input[position]? = some b) {s : Scanner α} {r r' : Cursor.Reader α}
    (hr : r' (.within input position) = r (.within input (position + 1)))
    (h : FollowsAt input depth low finish (position + 1) s r) :
    FollowsAt input depth low finish position (Scanner.step >>= fun _ => s) r' := by
  unfold FollowsAt
  rw [Scanner.bind_apply, Scanner.bind_apply, Scanner.step_run (Host.actual_holds hshort) hb,
    Scanner.step_run (Host.ideal_holds input) hb, hr]
  exact h

theorem quotedFrom_follows {low : Nat} (hlow : low ≤ position) (hposition : position ≤ input.length)
    {rounds : Nat} (hrounds : input.length - position < rounds) (taken : Bytes) :
    FollowsAt input depth low some position (Scanner.quotedFrom rounds taken) (Cursor.quotedTail taken) := by
  induction rounds generalizing position taken with
  | zero => exact absurd hrounds (Nat.not_lt_zero _)
  | succ rounds ih =>
    refine FollowsAt.peek ?_
    rcases hb : input[position]? with _ | b
    · refine FollowsAt.congr (r := Cursor.fail .unterminated) ?_ (followsAt_stop (by decide) hposition)
      show Cursor.quotedFrom position taken (input.drop position) = _
      rw [List.drop_eq_nil_of_le (List.getElem?_eq_none_iff.mp hb)]
      rfl
    · have hlt : position < input.length := (List.getElem?_eq_some_iff.mp hb).1
      have hread := Cursor.quotedTail_within taken hb
      dsimp only
      split
      next hquote =>
        rw [if_pos hquote] at hread
        exact .step hshort hb (r := pure taken.reverse) hread (.passed _ rfl (by omega) hlt)
      next hquote =>
      rw [if_neg hquote] at hread
      split
      next hback =>
        -- Whatever the next byte is, it is taken.
        rw [if_pos hback] at hread
        rcases hnext : input[position + 1]? with _ | escaped <;> rw [hnext] at hread
        · refine .step hshort hb (r := Cursor.fail .danglingEscape) hread (.peek ?_)
          rw [hnext]
          exact followsAt_stop (by decide) hlt
        · have hnextlt : position + 1 < input.length := (List.getElem?_eq_some_iff.mp hnext).1
          refine .step hshort hb
            (r := fun _ => Cursor.quotedTail (escaped :: taken) (.within input (position + 2)))
            hread (.peek ?_)
          rw [hnext]
          exact .step hshort hnext rfl (ih (by omega) hnextlt (by omega) _)
      next hback =>
      rw [if_neg hback] at hread
      split
      next hin =>
        rw [if_pos hin] at hread
        exact .step hshort hb hread (ih (by omega) hlt (by omega) _)
      next hin =>
        rw [if_neg hin] at hread
        exact .congr (r := Cursor.fail .unterminated) hread (followsAt_stop (by decide) hposition)

theorem quoted_follows : Follows input depth 1 some Scanner.quoted Cursor.quoted := by
  refine (expect_follows hshort Octet.quote).bind fun _ => ?_
  refine Follows.bind (fun position hposition => ?_) fun bytes => follows_pure (Value.quoted bytes)
  exact quotedFrom_follows hshort (Nat.le_refl _) hposition (Nat.lt_succ_of_le (Nat.sub_le ..)) []

theorem take_follows {n : Nat} (hposition : position ≤ input.length)
    (h : announced (input.take position) = some n) :
    FollowsAt input depth position some position (Scanner.take n) (Cursor.take n) := by
  unfold FollowsAt
  rw [Scanner.take_run (rfl : Host.ideal.hasAddress (position + n) = true), Cursor.take_within hposition]
  by_cases hroom : position + n < UInt64.size
  · rw [Scanner.take_run (decide_eq_true hroom), if_pos hroom]
    split
    · refine .fault position _ hposition fun _ => ?_
      rintro ⟨m, hm, hbeyond⟩
      cases h.symm.trans hm
      omega
    next hlength => exact .passed (position + n) rfl (Nat.le_add_right ..) (Nat.le_of_not_lt hlength)
  · rw [Scanner.take_overflow (decide_eq_false hroom), if_neg hroom, if_pos (by omega)]
    exact .beyond position hposition ⟨n, h, Nat.le_of_not_lt hroom⟩

omit hshort in
theorem take_passed {bytes : Bytes} {position' : Nat} (hposition : position ≤ input.length)
    (hline : position' ≤ input.length) (h : input.drop position = bytes ++ input.drop position') :
    input.take position' = input.take position ++ bytes := by
  have hlength := congrArg List.length h
  simp only [List.length_append, List.length_drop] at hlength
  obtain rfl : position' = position + bytes.length := by omega
  rw [List.take_add, h, List.take_left]

omit hshort in
/-- An announcement that has been passed is one that is found by looking back. -/
theorem announced_of_mark {signed : Bool} {digits : Bytes} {n position' : Nat}
    (hn : Octet.number? UInt64.size digits = some n) (hposition : position ≤ input.length)
    (hline : position' ≤ input.length)
    (h : input.drop position = mark signed digits ++ Octet.crlf ++ input.drop position') :
    announced (input.take position') = some n := by
  rw [take_passed hposition hline h, ← List.append_assoc, announced_crlf, List.reverse_append]
  exact announced?_mark signed hn

theorem literal_follows : Follows input depth 1 some Scanner.literal Cursor.literal := by
  intro position hposition
  refine (expect_follows hshort _ position hposition).bind fun _ p₁ hopen h₁ hp₁ => ?_
  refine (run_follows hshort _ p₁ hp₁).bind fun digits p₂ hdigits h₂ hp₂ => ?_
  rcases hn : Octet.number? UInt64.size digits with _ | n
  · exact followsAt_stop (by decide) hp₂
  refine (eat_follows hshort _ p₂ hp₂).bind fun signed p₃ hsigned h₃ hp₃ => ?_
  refine (expect_follows hshort _ p₃ hp₃).bind fun _ p₄ hclose h₄ hp₄ => ?_
  refine (expect_follows hshort _ p₄ hp₄).bind fun _ p₅ hcr h₅ hp₅ => ?_
  refine (expect_follows hshort _ p₅ hp₅).bind fun _ p₆ hlf h₆ hp₆ => ?_
  have hannounced : announced (input.take p₆) = some n := by
    refine announced_of_mark hn hposition hp₆ (?_ : _ = mark signed digits ++ _ ++ _)
    rw [Cursor.expect_passed hopen, Cursor.takeWhile_passed hdigits, Cursor.eat_passed hsigned,
      Cursor.expect_passed hclose, Cursor.expect_passed hcr, Cursor.expect_passed hlf]
    simp [mark]
  exact (take_follows hshort hp₆ hannounced).bind fun bytes p₇ _ h₇ hp₇ => .passed p₇ rfl (by omega) hp₇

/-! ### Values -/

/-- A run is passed, whatever is in it. -/
theorem FollowsAt.pass {α : Type} {low : Nat} {finish : α → Option α} {p : UInt8 → Bool} {s : Scanner α}
    {r : Cursor.Reader α} (hposition : position ≤ input.length)
    (h : ∀ position', position ≤ position' → position' ≤ input.length →
      FollowsAt input depth low finish position' s r) :
    FollowsAt input depth low finish position
      (Scanner.rounds >>= fun n => Scanner.passWhile p n >>= fun _ => s)
      (Cursor.takeWhile p >>= fun _ => r) := by
  unfold FollowsAt
  have hrounds : input.length - position < input.length + 1 := Nat.lt_succ_of_le (Nat.sub_le ..)
  show SideBySide input depth low finish
    ((Scanner.passWhile p (input.length + 1) >>= fun _ => s) ⟨input, .actual⟩ ⟨position, depth⟩)
    ((Scanner.passWhile p (input.length + 1) >>= fun _ => s) ⟨input, .ideal⟩ ⟨position, depth⟩) _
  rw [Scanner.bind_apply, Scanner.bind_apply, Scanner.passWhile_run (Host.actual_holds hshort) hrounds,
    Scanner.passWhile_run (Host.ideal_holds input) hrounds, Cursor.bind_apply, Cursor.takeWhile_within]
  exact h _ (Nat.le_add_right ..) (Scanner.taken_le hposition)

omit hshort in
theorem FollowsAt.atEnd {α : Type} {low : Nat} {finish : α → Option α} {next : Bool → Scanner α}
    {next' : Cursor → Cursor.Reader α}
    (h : FollowsAt input depth low finish position (next (Cursor.within input position).atEnd)
      (next' (.within input position))) :
    FollowsAt input depth low finish position (Scanner.atEnd >>= next) (get >>= next') := by
  have hend : ∀ host, Scanner.atEnd ⟨input, host⟩ ⟨position, depth⟩ =
      .ok ((Cursor.within input position).atEnd, ⟨position, depth⟩) := by
    intro host
    show (match input[position]? with | none => _ | some b => _ : Scanner Bool) _ _ = _
    rcases hb : input[position]? with _ | b
    · rw [Cursor.within_end hb]
      rfl
    · rw [Cursor.within_next hb]
      rfl
  unfold FollowsAt
  rw [Scanner.bind_apply, Scanner.bind_apply, hend, hend]
  exact h

section
variable {one : Scanner Value} {one' : Cursor.Reader Value}

theorem valuesFrom_follows (h : Follows input depth 1 some one one') (close : UInt8) {rounds limit low : Nat}
    (hlow : low ≤ position) (hposition : position ≤ input.length) (hrounds : input.length - position < rounds)
    (hlimit : input.length - position < limit) (taken : List Value) :
    FollowsAt input depth low some position (Scanner.valuesFrom one close rounds taken)
      (Cursor.valuesFrom one' close limit taken) := by
  induction rounds generalizing position limit taken with
  | zero => exact absurd hrounds (Nat.not_lt_zero _)
  | succ rounds ih =>
    obtain ⟨limit, rfl⟩ := Nat.exists_eq_succ_of_ne_zero (Nat.ne_zero_of_lt hlimit)
    refine .pass hshort hposition fun p₁ h₁ hp₁ => ?_
    refine (eat_follows hshort close p₁ hp₁).bind fun closed p₂ _ h₂ hp₂ => ?_
    refine .ite (fun _ => .passed p₂ rfl (by omega) hp₂) fun _ => .atEnd ?_
    refine .ite (fun _ => followsAt_stop (by simp) hp₂) fun _ => ?_
    refine (h p₂ hp₂).bind fun v p₃ _ h₃ hp₃ => ?_
    exact ih (by omega) hp₃ (by omega) (by omega) (v :: taken)

theorem valuesUntil_follows (h : Follows input depth 1 some one one') (close : UInt8) :
    Follows input depth 0 some (Scanner.rounds >>= fun n => Scanner.valuesFrom one close n [])
      (Cursor.valuesUntil one' close) := by
  intro position hposition
  have hlimit : input.length - position < (input.drop position).length + 1 := by
    rw [List.length_drop]
    exact Nat.lt_succ_self _
  exact valuesFrom_follows hshort h close (Nat.le_refl position) hposition
    (Nat.lt_succ_of_le (Nat.sub_le ..)) hlimit []

omit hshort in
/-- Opening a bracket before and closing it afterwards changes nothing else. -/
theorem FollowsAt.inside {α : Type} {low : Nat} {s : Scanner α} {r : Cursor.Reader α}
    (hdepth : depth < Cursor.maxDepth) (h : FollowsAt input (depth + 1) low some position s r) :
    FollowsAt input depth low some position
      (Scanner.descend >>= fun _ => s >>= fun a => Scanner.ascend >>= fun _ => pure a) r := by
  have hdescend : Scanner.descend ⟨input, .actual⟩ ⟨position, depth⟩ = .ok ((), ⟨position, depth + 1⟩) :=
    if_pos (decide_eq_true (Nat.lt_of_le_of_lt (Nat.succ_le_of_lt hdepth) (by decide)))
  have hjoined : SideBySide input depth low some
      (s ⟨input, .actual⟩ ⟨position, depth + 1⟩ >>= fun q =>
        (Scanner.ascend >>= fun _ => pure q.1) ⟨input, .actual⟩ q.2)
      (s ⟨input, .ideal⟩ ⟨position, depth + 1⟩ >>= fun q =>
        (Scanner.ascend >>= fun _ => pure q.1) ⟨input, .ideal⟩ q.2)
      (r (.within input position) >>= pure) :=
    SideBySide.bind h (fun a a' position' hfinish _ hlow hline => .passed position' hfinish hlow hline) nofun
  rw [bind_pure] at hjoined
  unfold FollowsAt
  rw [Scanner.bind_apply, hdescend]
  exact hjoined

/-- A list whose opening bracket is next, and in which scanner and reader follow each other unless it
lies too deep. -/
theorem bracket_follows {one' : Option (Cursor.Reader Value)} {b : UInt8} (hb : input[position]? = some b)
    (h : one' = none ∧ Cursor.maxDepth ≤ depth ∨
      ∃ r, one' = some r ∧ depth < Cursor.maxDepth ∧ Follows input (depth + 1) 1 some one r)
    (close : UInt8) (make : List Value → Value) :
    FollowsAt input depth (position + 1) some position
      (Scanner.step >>= fun _ => Scanner.nested one close >>= fun values => pure (make values))
      (Cursor.bracket one' close make) := by
  have hlt : position < input.length := (List.getElem?_eq_some_iff.mp hb).1
  have hskip : (Cursor.within input position).skip 1 = .within input (position + 1) := Cursor.within_skip 1
  rcases h with ⟨rfl, hdepth⟩ | ⟨r, rfl, hdepth, h⟩
  · refine .step hshort hb (r := Cursor.fail .tooDeep) (congrArg (Cursor.fail .tooDeep) hskip) ?_
    have hdeep : ∀ host, Scanner.nested one close ⟨input, host⟩ ⟨position + 1, depth⟩ =
        .error (.fault (position + 1) .tooDeep) := by
      intro host
      show (if Cursor.maxDepth ≤ depth then _ else _ : Scanner (List Value)) _ _ = _
      rw [if_pos hdepth]
      rfl
    unfold FollowsAt
    rw [Scanner.bind_apply, Scanner.bind_apply, hdeep, hdeep]
    exact .fault (position + 1) .tooDeep hlt nofun
  · refine .step hshort hb (r := make <$> Cursor.valuesUntil r close)
      (congrArg (make <$> Cursor.valuesUntil r close) hskip) ?_
    have hinside := FollowsAt.inside hdepth (valuesUntil_follows hshort h close (position + 1) hlt)
    have hnested : FollowsAt input depth (position + 1) some (position + 1) (Scanner.nested one close)
        (Cursor.valuesUntil r close) := by
      have hshallow : ∀ host, Scanner.nested one close ⟨input, host⟩ ⟨position + 1, depth⟩ =
          (Scanner.descend >>= fun _ => (Scanner.rounds >>= fun n => Scanner.valuesFrom one close n []) >>=
            fun values => Scanner.ascend >>= fun _ => pure values) ⟨input, host⟩ ⟨position + 1, depth⟩ := by
        intro host
        show (if Cursor.maxDepth ≤ depth then _ else _ : Scanner (List Value)) _ _ = _
        rw [if_neg (Nat.not_le_of_lt hdepth)]
        rfl
      unfold FollowsAt
      rw [hshallow, hshallow]
      exact hinside
    rw [map_eq_pure_bind]
    exact hnested.bind fun values p₂ _ h₂ hp₂ => .passed p₂ rfl h₂ hp₂

theorem valueBy_follows {one' : Option (Cursor.Reader Value)}
    (h : one' = none ∧ Cursor.maxDepth ≤ depth ∨
      ∃ r, one' = some r ∧ depth < Cursor.maxDepth ∧ Follows input (depth + 1) 1 some one r) :
    Follows input depth 1 some (Scanner.valueBy one) (Cursor.valueBy Cursor.literal one') := by
  intro position hposition
  refine FollowsAt.peek ?_
  rcases hb : input[position]? with _ | b
  · exact FollowsAt.congr (r := Cursor.fail .endOfLine) (Cursor.valueBy_end hb)
      (followsAt_stop (by decide) hposition)
  · refine FollowsAt.congr (Cursor.valueBy_next hb) ?_
    refine .ite (fun _ => bracket_follows hshort hb h _ .list) fun _ =>
      .ite (fun _ => bracket_follows hshort hb h _ .bracketed) fun _ =>
      .ite (fun _ => quoted_follows hshort position hposition) fun _ =>
      .ite (fun _ => literal_follows hshort position hposition) fun _ =>
      .ite (fun _ => atom_follows hshort position hposition) fun _ => followsAt_stop (by decide) hposition

/-- As many brackets are open as the reader has levels no more. -/
theorem valueWithin_follows {levels : Nat} (h : levels + depth = Cursor.maxDepth) :
    Follows input depth 1 some (Scanner.valueWithin (levels + 1))
      (Cursor.valueWithin Cursor.literal levels) := by
  induction levels generalizing depth with
  | zero => exact valueBy_follows hshort (.inl ⟨rfl, by omega⟩)
  | succ levels ih => exact valueBy_follows hshort (.inr ⟨_, rfl, by omega, ih (by omega)⟩)

end

theorem value_follows : Follows input 0 1 some Scanner.value (Cursor.value Cursor.literal) :=
  valueWithin_follows hshort rfl

theorem values_follows (close : UInt8) :
    Follows input 0 0 some (Scanner.values close) (Cursor.values Cursor.literal close) :=
  valuesUntil_follows hshort (value_follows hshort) close

theorem string_follows : Follows input 0 1 some Scanner.string (Cursor.string Cursor.literal) := by
  intro position hposition
  have hnext : ∀ byte, (Cursor.within input position).isNext byte = decide (input[position]? = some byte) :=
    fun byte => by rw [Bool.eq_iff_iff, Cursor.within_isNext, decide_eq_true_iff]
  refine FollowsAt.look ?_
  rw [hnext, hnext]
  refine .ite (fun _ => value_follows hshort position hposition) fun _ => ?_
  exact someRun_follows hshort (by decide) (fun bytes => follows_pure _) position hposition

end

end Mailroom
