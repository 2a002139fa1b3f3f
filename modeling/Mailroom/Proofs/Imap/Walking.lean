import Mailroom.Proofs.Imap.Following
import Mailroom.Proofs.Session.Running

/-! Reading that leaves a trace.

A reader that fails says where it stood, but its cursor is gone. A `Walker` moves a spot that is there however
a call ends: it holds the position, how many brackets are open, and how many words and values have been begun.
The readers of words and values are written here as they go along a line by index, with each look at the line,
each cut and each sum of addresses checked, and with each loop and each recursion granted as many rounds as
there can be. A `Walker` walks with a reader of cursors (`Walks`) if from every spot both come to the same, and
the spot has gone on as far as it has to, stays in the line, and is as deep in brackets as it was. -/
namespace Mailroom
open Mailroom.Frame

/-- Where a walk along a line stands. -/
structure Spot where
  position : Nat
  /-- How many brackets are open around the position. -/
  depth : Nat
  /-- How many words and values have been begun. -/
  reads : Nat := 0
  deriving DecidableEq

/-- A walker moves its spot along a line, and leaves it where it stands when it stops. -/
abbrev Walker (α : Type) := ReaderT Bytes (ExceptT Stop (StateM Spot)) α

namespace Walker

/-- Finds the line at fault here. -/
def stop {α : Type} (reason : Reason) : Walker α := fun _ spot => (.error (.fault spot.position reason), spot)

/-- Gives up. -/
def abort {α : Type} (cause : Abort) : Walker α := fun _ spot => (.error (.abort cause), spot)

/-- The next byte, if there is one. -/
def peek : Walker (Option UInt8) := fun input spot => (.ok input[spot.position]?, spot)

/-- The position. -/
def position : Walker Nat := fun _ spot => (.ok spot.position, spot)

/-- Goes to a position. -/
def goTo (position : Nat) : Walker Unit := fun _ spot => (.ok (), { spot with position })

/-- Begins a word or a value. -/
def begin : Walker Unit := fun _ spot => (.ok (), { spot with reads := spot.reads + 1 })

/-- The sum of two addresses, if it is one. -/
def sum (a b : Nat) : Walker Nat := fun _ spot =>
  if a + b < UInt64.size then (.ok (a + b), spot) else (.error (.abort .overflow), spot)

/-- The bytes of the line between two positions. -/
def cut (start finish : Nat) : Walker Bytes := fun input spot =>
  if start ≤ finish ∧ finish ≤ input.length then (.ok ((input.drop start).take (finish - start)), spot)
  else (.error (.abort .outOfRange), spot)

/-- How many rounds a loop over the line is granted. -/
def rounds : Walker Nat := fun input spot => (.ok (input.length + 1), spot)

/-- Passes one byte. -/
def step : Walker Unit := do
  goTo (← sum (← position) 1)

/-- Passes `byte` if it is next, and says whether it was. -/
def eat (byte : UInt8) : Walker Bool := do
  if (← peek) = some byte then
    step
    pure true
  else pure false

/-- Passes `byte`, which has to be next. -/
def expect (byte : UInt8) : Walker Unit := do
  if (← peek) = some byte then step else stop (.expected byte)

/-- Whether the line ends here. -/
def atEnd : Walker Bool := do
  match ← peek with
  | none => pure true
  | some b => pure (b == Octet.cr || b == Octet.lf)

/-- Passes bytes as long as `p` holds of them. -/
def passWhile (p : UInt8 → Bool) : Nat → Walker Unit
  | 0 => abort .endless
  | rounds + 1 => do
    match ← peek with
    | none => pure ()
    | some b =>
      if p b then
        step
        passWhile p rounds
      else pure ()

/-- The bytes for which `p` holds, up to the first for which it does not. -/
def run (p : UInt8 → Bool) : Walker Bytes := do
  let start ← position
  passWhile p (← rounds)
  cut start (← position)

/-- A run of one byte at least. -/
def someRun (p : UInt8 → Bool) (otherwise : Reason) : Walker Bytes := do
  let start ← position
  passWhile p (← rounds)
  let finish ← position
  if start = finish then stop otherwise else cut start finish

/-- The bytes up to the next space. -/
def word : Walker String := do
  begin
  let bytes ← someRun (fun b => Cursor.inLine b && b != Octet.space) .expectedWord
  match Utf8.strict? bytes with
  | some text => pure text
  | none => stop .wordNotText

/-- Everything up to the end of the line. -/
def restOfLine : Walker String := do
  pure (Utf8.lossy (← run Cursor.inLine))

/-- A bare word. -/
def atom : Walker Value := do
  pure (Cursor.ofWord (← someRun Cursor.isAtomByte .expectedAtom))

/-- The bytes of a quoted string after its opening mark. `taken` holds those so far, latest first. -/
def quotedFrom : Nat → Bytes → Walker Bytes
  | 0, _ => abort .endless
  | rounds + 1, taken => do
    match ← peek with
    | none => stop .unterminated
    | some b =>
      if b = Octet.quote then
        step
        pure taken.reverse
      else if b = Octet.backslash then
        step
        match ← peek with
        | none => stop .danglingEscape
        | some escaped =>
          step
          quotedFrom rounds (escaped :: taken)
      else if Cursor.inLine b then
        step
        quotedFrom rounds (b :: taken)
      else stop .unterminated

/-- A string between quotation marks. -/
def quoted : Walker Value := do
  expect Octet.quote
  pure (.quoted (← quotedFrom (← rounds) []))

/-- The next `n` bytes. Where they would end is worked out first. -/
def take (n : Nat) : Walker Bytes := do
  let start ← position
  let finish ← sum start n
  if (← read).length < finish then stop .truncated
  else
    let bytes ← cut start finish
    goTo finish
    pure bytes

/-- A string of announced length. -/
def literal : Walker Value := do
  expect Octet.openBrace
  let digits ← run Octet.isDigit
  match Octet.number? UInt64.size digits with
  | none => stop .badLength
  | some length =>
    let _ ← eat Octet.plus
    expect Octet.closeBrace
    expect Octet.cr
    expect Octet.lf
    let bytes ← take length
    pure (.literal bytes)

/-- Values up to `close`, which is passed. `one` reads a value, and `taken` holds those so far, latest
first. -/
def valuesFrom (one : Walker Value) (close : UInt8) : Nat → List Value → Walker (List Value)
  | 0, _ => abort .endless
  | rounds + 1, taken => do
    passWhile (· == Octet.space) (← Walker.rounds)
    if ← eat close then pure taken.reverse
    else if ← atEnd then stop (.unclosed close)
    else
      let v ← one
      valuesFrom one close rounds (v :: taken)

/-- Does something within a bracket. The bracket is closed whether or not that succeeds, unless it is given
up. -/
def inside {α : Type} (w : Walker α) : Walker α := fun input spot =>
  match w input { spot with depth := spot.depth + 1 } with
  | (.error (.abort cause), spot) => (.error (.abort cause), spot)
  | (result, spot) => (result, { spot with depth := spot.depth - 1 })

/-- The values of a list after its opening bracket. -/
def nested (one : Walker Value) (close : UInt8) : Walker (List Value) := do
  if Cursor.maxDepth ≤ (← get).depth then stop .tooDeep
  else inside (valuesFrom one close (← rounds) [])

/-- One value, the members of a list by `one`. -/
def valueBy (one : Walker Value) : Walker Value := do
  begin
  match ← peek with
  | none => stop .endOfLine
  | some b =>
    if b = Octet.openParen then
      step
      pure (.list (← nested one Octet.closeParen))
    else if b = Octet.openBracket then
      step
      pure (.bracketed (← nested one Octet.closeBracket))
    else if b = Octet.quote then quoted
    else if b = Octet.openBrace then literal
    else if Cursor.inLine b then atom
    else stop .endOfLine

/-- One value. The walker calls itself for the members of a list, within each other no more than the given
number of times. -/
def valueWithin : Nat → Walker Value
  | 0 => abort .endless
  | calls + 1 => valueBy (valueWithin calls)

/-- One value. -/
def value : Walker Value := valueWithin (Cursor.maxDepth + 1)

/-- Values up to `close`. -/
def values (close : UInt8) : Walker (List Value) := do
  valuesFrom value close (← rounds) []

/-- A string, in any of its three forms. -/
def string : Walker Value := do
  let next ← peek
  if next = some Octet.quote || next = some Octet.openBrace then value
  else
    begin
    let bytes ← someRun (fun b => Cursor.inLine b && b != Octet.space && b != Octet.openParen &&
      b != Octet.closeParen) .expectedString
    pure (.atom (Utf8.lossy bytes))

/-! ### What walkers of runs come to -/

section
variable {α β : Type} {input : Bytes} {depth reads position : Nat} {byte b : UInt8} {p : UInt8 → Bool}

theorem bind_apply (w : Walker α) (next : α → Walker β) (input : Bytes) (spot : Spot) :
    (w >>= next) input spot = match w input spot with
      | (.ok a, spot') => next a input spot'
      | (.error stop, spot') => (.error stop, spot') := by
  have hrun := bind_run (w input) (fun a => next a input) spot
  show (w input >>= fun a => next a input) spot = _
  rcases h : w input spot with ⟨_ | _, _⟩ <;> rw [h] at hrun <;> exact hrun

theorem step_run (hshort : input.length < UInt64.size) (h : input[position]? = some b) :
    step input ⟨position, depth, reads⟩ = (.ok (), ⟨position + 1, depth, reads⟩) := by
  have hlt : position < input.length := (List.getElem?_eq_some_iff.mp h).1
  have hsum : sum position 1 input ⟨position, depth, reads⟩ = (.ok (position + 1), ⟨position, depth, reads⟩) :=
    if_pos (by omega)
  show (sum position 1 >>= goTo) input ⟨position, depth, reads⟩ = _
  rw [bind_apply, hsum]
  rfl

theorem eat_run (hshort : input.length < UInt64.size) :
    eat byte input ⟨position, depth, reads⟩ =
      if input[position]? = some byte then (.ok true, ⟨position + 1, depth, reads⟩)
      else (.ok false, ⟨position, depth, reads⟩) := by
  show (if input[position]? = some byte then _ else _ : Walker Bool) _ _ = _
  split
  · next h =>
    rw [bind_apply, step_run hshort h]
    rfl
  · rfl

theorem expect_run (hshort : input.length < UInt64.size) :
    expect byte input ⟨position, depth, reads⟩ =
      if input[position]? = some byte then (.ok (), ⟨position + 1, depth, reads⟩)
      else (.error (.fault position (.expected byte)), ⟨position, depth, reads⟩) := by
  show (if input[position]? = some byte then _ else _ : Walker Unit) _ _ = _
  split
  · next h => exact step_run hshort h
  · rfl

theorem passWhile_run (hshort : input.length < UInt64.size) {rounds : Nat}
    (h : input.length - position < rounds) :
    passWhile p rounds input ⟨position, depth, reads⟩ =
      (.ok (), ⟨position + (Scanner.taken input position p).length, depth, reads⟩) := by
  induction rounds generalizing position with
  | zero => exact absurd h (Nat.not_lt_zero _)
  | succ rounds ih =>
    show (match input[position]? with | none => _ | some b => _ : Walker Unit) _ _ = _
    rcases hb : input[position]? with _ | b
    · rw [Scanner.taken, List.drop_eq_nil_of_le (List.getElem?_eq_none_iff.mp hb)]
      rfl
    · have hlt : position < input.length := (List.getElem?_eq_some_iff.mp hb).1
      rw [Scanner.taken, Scanner.drop_eq_cons hb, List.takeWhile_cons]
      show (if p b then _ else _ : Walker Unit) _ _ = _
      split
      · rw [bind_apply, step_run hshort hb]
        dsimp only
        rw [ih (by omega), List.length_cons, Nat.add_right_comm, Nat.add_assoc]
        rfl
      · rfl

theorem cut_taken (hposition : position ≤ input.length) (spot : Spot) :
    cut position (position + (Scanner.taken input position p).length) input spot =
      (.ok (Scanner.taken input position p), spot) := by
  have hcut : (input.drop position).take (position + (Scanner.taken input position p).length - position) =
      Scanner.taken input position p := by
    rw [Nat.add_sub_cancel_left, Scanner.drop_taken input position p, List.take_left]
  rw [cut, if_pos ⟨Nat.le_add_right .., Scanner.taken_le hposition⟩, hcut]

theorem run_run (hshort : input.length < UInt64.size) (hposition : position ≤ input.length) :
    run p input ⟨position, depth, reads⟩ =
      (.ok (Scanner.taken input position p),
        ⟨position + (Scanner.taken input position p).length, depth, reads⟩) := by
  show (passWhile p (input.length + 1) >>= fun _ => Walker.position >>= cut position) _ _ = _
  rw [bind_apply, passWhile_run hshort (by omega)]
  exact cut_taken hposition _

theorem someRun_run (hshort : input.length < UInt64.size) (hposition : position ≤ input.length)
    {reason : Reason} :
    someRun p reason input ⟨position, depth, reads⟩ =
      if (Scanner.taken input position p).isEmpty then (.error (.fault position reason), ⟨position, depth, reads⟩)
      else (.ok (Scanner.taken input position p),
        ⟨position + (Scanner.taken input position p).length, depth, reads⟩) := by
  show (passWhile p (input.length + 1) >>= fun _ => Walker.position >>= fun finish =>
    if position = finish then stop reason else cut position finish) _ _ = _
  rw [bind_apply, passWhile_run hshort (by omega)]
  show (if position = position + (Scanner.taken input position p).length then stop reason
    else cut position (position + (Scanner.taken input position p).length) : Walker Bytes) input
      ⟨position + (Scanner.taken input position p).length, depth, reads⟩ = _
  by_cases htaken : (Scanner.taken input position p).length = 0
  · rw [List.length_eq_zero_iff.mp htaken, List.length_nil, Nat.add_zero, if_pos rfl]
    rfl
  · rw [if_neg (by omega), if_neg (by rwa [List.isEmpty_iff_length_eq_zero])]
    exact cut_taken hposition _

theorem take_run (n : Nat) :
    take n input ⟨position, depth, reads⟩ =
      if position + n < UInt64.size then
        if input.length < position + n then (.error (.fault position .truncated), ⟨position, depth, reads⟩)
        else (.ok ((input.drop position).take n), ⟨position + n, depth, reads⟩)
      else (.error (.abort .overflow), ⟨position, depth, reads⟩) := by
  show (sum position n >>= _) input ⟨position, depth, reads⟩ = _
  by_cases hroom : position + n < UInt64.size
  · have hsum : sum position n input ⟨position, depth, reads⟩ =
        (.ok (position + n), ⟨position, depth, reads⟩) := if_pos hroom
    rw [bind_apply, hsum, if_pos hroom]
    show (if input.length < position + n then _ else _ : Walker Bytes) _ _ = _
    split
    · rfl
    · next hlength =>
      have hcut : cut position (position + n) input ⟨position, depth, reads⟩ =
          (.ok ((input.drop position).take n), ⟨position, depth, reads⟩) := by
        rw [cut, if_pos ⟨Nat.le_add_right .., Nat.le_of_not_lt hlength⟩, Nat.add_sub_cancel_left]
      rw [bind_apply, hcut]
      rfl
  · have hsum : sum position n input ⟨position, depth, reads⟩ =
        (.error (.abort .overflow), ⟨position, depth, reads⟩) := if_neg hroom
    rw [bind_apply, hsum, if_neg hroom]

theorem nested_run (one : Walker Value) (close : UInt8) :
    nested one close input ⟨position, depth, reads⟩ =
      if Cursor.maxDepth ≤ depth then (.error (.fault position .tooDeep), ⟨position, depth, reads⟩)
      else inside (rounds >>= fun n => valuesFrom one close n []) input ⟨position, depth, reads⟩ := by
  show (if Cursor.maxDepth ≤ depth then _ else _ : Walker (List Value)) _ _ = _
  split <;> rfl

end

end Walker

/-! ### Walking with a reader -/

section
variable {α β : Type}

/-- What a walk and a reader come to from a position, with so many words and values begun before. They pass to
the same position, `low` or further on, or find the line at fault there for the same reason, unless the walk is
given up, which it is for a string that would end beyond all addresses. The spot never goes back and never leaves the line,
and unless the walk is given up it is as deep as before. As many bytes are passed as words and values are
begun, and `free` more; if the last of them fails, one less. -/
inductive Walked (input : Bytes) (start depth begun low free : Nat) :
    Except Stop α × Spot → Except Fault (α × Cursor) → Prop
  | passed {a : α} {position reads : Nat} (hlow : low ≤ position) (hstart : start ≤ position)
      (hline : position ≤ input.length) (hreads : reads + start + free ≤ begun + position) :
      Walked input start depth begun low free (.ok a, ⟨position, depth, reads⟩) (.ok (a, .within input position))
  | fault {position reads : Nat} {reason : Reason} (hroom : reason = .truncated → ¬ Beyond input position)
      (hstart : start ≤ position) (hline : position ≤ input.length)
      (hreads : reads + start + free ≤ begun + position + 1) :
      Walked input start depth begun low free (.error (.fault position reason), ⟨position, depth, reads⟩)
        (.error (.malformed position reason))
  | beyond {position deep reads : Nat} (hstart : start ≤ position) (hline : position ≤ input.length)
      (hreads : reads + start + free ≤ begun + position + 1) (hbeyond : Beyond input position) :
      Walked input start depth begun low free (.error (.abort .overflow), ⟨position, deep, reads⟩)
        (.error (.unreadable .lengthOverflow))

namespace Walked
variable {input : Bytes} {start depth begun low low' free free' : Nat} {x : Except Stop α × Spot}
  {z : Except Fault (α × Cursor)}

theorem mono (h : Walked input start depth begun low free x z) (hlow : low' ≤ low) (hfree : free' ≤ free) :
    Walked input start depth begun low' free' x z := by
  cases h with
  | passed hpassed hstart hline hreads => exact .passed (hlow.trans hpassed) hstart hline (by omega)
  | fault hroom hstart hline hreads => exact .fault hroom hstart hline (by omega)
  | beyond hstart hline hreads hbeyond => exact .beyond hstart hline (by omega) hbeyond

/-- A word or a value is paid for by a byte that is passed outside of those within it. -/
theorem begin (h : Walked input start depth (begun + 1) low 1 x z) : Walked input start depth begun low 0 x z := by
  cases h with
  | passed hlow hstart hline hreads => exact .passed hlow hstart hline (by omega)
  | fault hroom hstart hline hreads => exact .fault hroom hstart hline (by omega)
  | beyond hstart hline hreads hbeyond => exact .beyond hstart hline (by omega) hbeyond

/-- What comes after a part that was passed goes on from there. -/
theorem after {position reads : Nat} (h : Walked input position depth reads low 0 x z) (hstart : start ≤ position)
    (hreads : reads + start + free ≤ begun + position) : Walked input start depth begun low free x z := by
  cases h with
  | passed hlow hfurther hline hreads' => exact .passed hlow (by omega) hline (by omega)
  | fault hroom hfurther hline hreads' => exact .fault hroom (by omega) hline (by omega)
  | beyond hfurther hline hreads' hbeyond => exact .beyond (by omega) hline (by omega) hbeyond

end Walked

/-- The walker and the reader come to an outcome together from a spot. -/
def WalksAt (input : Bytes) (position depth reads low free : Nat) (w : Walker α) (r : Cursor.Reader α) : Prop :=
  Walked input position depth reads low free (w input ⟨position, depth, reads⟩) (r (.within input position))

/-- The walker and the reader come to an outcome together from every spot of this depth in the line, and pass
`least` bytes at least. -/
def Walks (input : Bytes) (depth least free : Nat) (w : Walker α) (r : Cursor.Reader α) : Prop :=
  ∀ position ≤ input.length, ∀ reads, WalksAt input position depth reads (position + least) free w r

variable {input : Bytes} {position depth reads low low' free free' least : Nat} {w w' : Walker α}
  {r r' : Cursor.Reader α} {next : α → Walker β} {next' : α → Cursor.Reader β}

theorem WalksAt.bind (h : WalksAt input position depth reads low' free w r)
    (hnext : ∀ a position' reads', r (.within input position) = .ok (a, .within input position') →
      low' ≤ position' → position' ≤ input.length →
        WalksAt input position' depth reads' low 0 (next a) (next' a)) :
    WalksAt input position depth reads low free (w >>= next) (r >>= next') := by
  unfold WalksAt at h hnext ⊢
  rw [Walker.bind_apply, Cursor.bind_apply]
  generalize w input ⟨position, depth, reads⟩ = x at h ⊢
  generalize r (.within input position) = z at h hnext ⊢
  cases h with
  | passed hlow hstart hline hreads => exact (hnext _ _ _ rfl hlow hline).after hstart hreads
  | fault hroom hstart hline hreads => exact .fault hroom hstart hline hreads
  | beyond hstart hline hreads hbeyond => exact .beyond hstart hline hreads hbeyond

theorem Walks.bind (h : Walks input depth least free w r)
    (hnext : ∀ a, Walks input depth 0 0 (next a) (next' a)) :
    Walks input depth least free (w >>= next) (r >>= next') :=
  fun position hposition reads => (h position hposition reads).bind fun a position' reads' _ hlow hline =>
    (hnext a position' hline reads').mono hlow (Nat.le_refl _)

theorem WalksAt.mono (h : WalksAt input position depth reads low free w r) (hlow : low' ≤ low)
    (hfree : free' ≤ free) : WalksAt input position depth reads low' free' w r :=
  Walked.mono h hlow hfree

theorem Walks.relax (h : Walks input depth least free w r) : Walks input depth 0 0 w r :=
  fun position hposition reads => (h position hposition reads).mono (Nat.le_add_right ..) (Nat.zero_le _)

/-- What comes next is looked at. -/
theorem WalksAt.peek {next : Option UInt8 → Walker α}
    (h : WalksAt input position depth reads low free (next input[position]?) r) :
    WalksAt input position depth reads low free (Walker.peek >>= next) r := h

theorem WalksAt.look {next' : Cursor → Cursor.Reader α}
    (h : WalksAt input position depth reads low free w (next' (.within input position))) :
    WalksAt input position depth reads low free w (get >>= next') := h

theorem WalksAt.begin (h : WalksAt input position depth (reads + 1) low 1 w r) :
    WalksAt input position depth reads low 0 (Walker.begin >>= fun _ => w) r :=
  Walked.begin h

theorem WalksAt.congr (hr : r' (.within input position) = r (.within input position))
    (h : WalksAt input position depth reads low free w r) : WalksAt input position depth reads low free w r' := by
  unfold WalksAt
  rw [hr]
  exact h

theorem WalksAt.ite {p : Prop} [Decidable p] (h : p → WalksAt input position depth reads low free w r)
    (h' : ¬ p → WalksAt input position depth reads low free w' r') :
    WalksAt input position depth reads low free (if p then w else w') (if p then r else r') := by
  by_cases hp : p
  · rw [if_pos hp, if_pos hp]
    exact h hp
  · rw [if_neg hp, if_neg hp]
    exact h' hp

theorem walksAt_pure {a : α} (hlow : low ≤ position) (hline : position ≤ input.length) :
    WalksAt input position depth reads low 0 (pure a) (pure a) :=
  .passed hlow (Nat.le_refl _) hline (Nat.le_refl _)

theorem walks_pure (a : α) : Walks input depth 0 0 (pure a) (pure a) :=
  fun _ hposition _ => walksAt_pure (Nat.le_refl _) hposition

theorem walksAt_stop {reason : Reason} (hreason : reason ≠ .truncated) (hfree : free ≤ 1) (hline : position ≤ input.length) :
    WalksAt input position depth reads low free (Walker.stop reason : Walker α) (Cursor.fail reason) := by
  show Walked input position depth reads low free (.error (.fault position reason), ⟨position, depth, reads⟩)
    (.error (.malformed position reason))
  exact .fault (absurd · hreason) (Nat.le_refl _) hline (by omega)

theorem walks_stop {reason : Reason} (hreason : reason ≠ .truncated) :
    Walks input depth 0 0 (Walker.stop reason : Walker α) (Cursor.fail reason) :=
  fun _ hposition _ => walksAt_stop hreason (Nat.zero_le _) hposition

end

/-! ### Words -/

section
variable {α β : Type} {input : Bytes} (hshort : input.length < UInt64.size) {position depth reads low : Nat}
include hshort

theorem eat_walks (byte : UInt8) : Walks input depth 0 0 (Walker.eat byte) (Cursor.eat byte) := by
  intro position hposition reads
  unfold WalksAt
  rw [Walker.eat_run hshort, Cursor.eat_within]
  split
  · next h => exact .passed (Nat.le_succ _) (Nat.le_succ _) (List.getElem?_eq_some_iff.mp h).1 (by omega)
  · exact .passed (Nat.le_refl _) (Nat.le_refl _) hposition (Nat.le_refl _)

theorem expect_walks (byte : UInt8) : Walks input depth 1 1 (Walker.expect byte) (Cursor.expect byte) := by
  intro position hposition reads
  unfold WalksAt
  rw [Walker.expect_run hshort, Cursor.expect_within]
  split
  · next h => exact .passed (Nat.le_refl _) (Nat.le_succ _) (List.getElem?_eq_some_iff.mp h).1 (by omega)
  · exact .fault nofun (Nat.le_refl _) hposition (Nat.le_refl _)

theorem run_walks (p : UInt8 → Bool) : Walks input depth 0 0 (Walker.run p) (Cursor.takeWhile p) := by
  intro position hposition reads
  unfold WalksAt
  rw [Walker.run_run hshort hposition, Cursor.takeWhile_within]
  exact .passed (Nat.le_add_right ..) (Nat.le_add_right ..) (Scanner.taken_le hposition) (by omega)

theorem someRun_walks {p : UInt8 → Bool} {reason : Reason} (hreason : reason ≠ .truncated)
    {next : Bytes → Walker β} {next' : Bytes → Cursor.Reader β}
    (h : ∀ bytes, Walks input depth 0 0 (next bytes) (next' bytes)) :
    Walks input depth 1 1 (Walker.someRun p reason >>= next)
      (Cursor.takeWhile p >>= fun bytes =>
        if bytes.isEmpty then Cursor.fail reason else next' bytes) := by
  intro position hposition reads
  unfold WalksAt
  rw [Walker.bind_apply, Cursor.bind_apply, Walker.someRun_run hshort hposition, Cursor.takeWhile_within]
  rcases htaken : Scanner.taken input position p with _ | ⟨b, bytes⟩
  · exact .fault (absurd · hreason) (Nat.le_refl _) hposition (by omega)
  · have hend : position + (b :: bytes).length ≤ input.length := htaken ▸ Scanner.taken_le hposition
    have hlength : (b :: bytes).length = bytes.length + 1 := List.length_cons
    exact ((h (b :: bytes) _ hend reads).mono (by omega) (Nat.le_refl _)).after (by omega) (by omega)

theorem word_walks : Walks input depth 1 0 Walker.word Cursor.word := by
  intro position hposition reads
  refine .begin (someRun_walks hshort (by decide) (fun bytes => ?_) position hposition _)
  rcases Utf8.strict? bytes with _ | text
  · exact walks_stop nofun
  · exact walks_pure text

theorem restOfLine_walks : Walks input depth 0 0 Walker.restOfLine Cursor.restOfLine :=
  (run_walks hshort _).bind fun bytes => walks_pure (Utf8.lossy bytes)

theorem atom_walks : Walks input depth 1 1 Walker.atom Cursor.atom :=
  someRun_walks hshort (by decide) fun bytes => walks_pure (Cursor.ofWord bytes)

/-- One byte is passed where there is one. -/
theorem WalksAt.step {b : UInt8} (hb : input[position]? = some b) {w : Walker α} {r r' : Cursor.Reader α}
    (hr : r' (.within input position) = r (.within input (position + 1)))
    (h : WalksAt input (position + 1) depth reads low 0 w r) :
    WalksAt input position depth reads low 1 (Walker.step >>= fun _ => w) r' := by
  unfold WalksAt
  rw [Walker.bind_apply, Walker.step_run hshort hb, hr]
  exact Walked.after h (Nat.le_succ _) (by omega)

theorem quotedFrom_walks (hlow : low ≤ position) (hposition : position ≤ input.length) {rounds : Nat}
    (hrounds : input.length - position < rounds) (taken : Bytes) :
    WalksAt input position depth reads low 0 (Walker.quotedFrom rounds taken) (Cursor.quotedTail taken) := by
  induction rounds generalizing position reads taken with
  | zero => exact absurd hrounds (Nat.not_lt_zero _)
  | succ rounds ih =>
    refine WalksAt.peek ?_
    rcases hb : input[position]? with _ | b
    · refine WalksAt.congr (r := Cursor.fail .unterminated) ?_ (walksAt_stop nofun (Nat.zero_le _) hposition)
      show Cursor.quotedFrom position taken (input.drop position) = _
      rw [List.drop_eq_nil_of_le (List.getElem?_eq_none_iff.mp hb)]
      rfl
    · have hlt : position < input.length := (List.getElem?_eq_some_iff.mp hb).1
      have hread := Cursor.quotedTail_within taken hb
      -- A byte that is passed is more than what has to be.
      have hstep : ∀ {w : Walker Bytes} {r : Cursor.Reader Bytes},
          Cursor.quotedTail taken (.within input position) = r (.within input (position + 1)) →
          WalksAt input (position + 1) depth reads low 0 w r →
          WalksAt input position depth reads low 0 (Walker.step >>= fun _ => w) (Cursor.quotedTail taken) :=
        fun hr h => (WalksAt.step hshort hb hr h).mono (Nat.le_refl _) (Nat.zero_le _)
      dsimp only
      split
      next hquote =>
        rw [if_pos hquote] at hread
        exact hstep (r := pure taken.reverse) hread (walksAt_pure (by omega) hlt)
      next hquote =>
      rw [if_neg hquote] at hread
      split
      next hback =>
        -- Whatever the next byte is, it is taken.
        rw [if_pos hback] at hread
        rcases hnext : input[position + 1]? with _ | escaped <;> rw [hnext] at hread
        · refine hstep (r := Cursor.fail .danglingEscape) hread (.peek ?_)
          rw [hnext]
          exact walksAt_stop nofun (Nat.zero_le _) hlt
        · have hnextlt : position + 1 < input.length := (List.getElem?_eq_some_iff.mp hnext).1
          refine hstep (r := fun _ => Cursor.quotedTail (escaped :: taken) (.within input (position + 2)))
            hread (.peek ?_)
          rw [hnext]
          exact (WalksAt.step hshort hnext rfl (ih (by omega) hnextlt (by omega) _)).mono (Nat.le_refl _)
            (Nat.zero_le _)
      next hback =>
      rw [if_neg hback] at hread
      split
      next hin =>
        rw [if_pos hin] at hread
        exact hstep hread (ih (by omega) hlt (by omega) _)
      next hin =>
        rw [if_neg hin] at hread
        exact .congr (r := Cursor.fail .unterminated) hread (walksAt_stop nofun (Nat.zero_le _) hposition)

theorem quoted_walks : Walks input depth 1 1 Walker.quoted Cursor.quoted := by
  refine (expect_walks hshort Octet.quote).bind fun _ => ?_
  refine Walks.bind (fun position hposition reads => ?_) fun bytes => walks_pure (Value.quoted bytes)
  exact quotedFrom_walks hshort (Nat.le_refl _) hposition (Nat.lt_succ_of_le (Nat.sub_le ..)) []

omit hshort in
theorem take_walks {n : Nat} (hposition : position ≤ input.length)
    (h : announced (input.take position) = some n) :
    WalksAt input position depth reads position 0 (Walker.take n) (Cursor.take n) := by
  unfold WalksAt
  rw [Walker.take_run, Cursor.take_within hposition]
  split
  · split
    · refine .fault (fun _ => ?_) (Nat.le_refl _) hposition (by omega)
      rintro ⟨n', hn', hbeyond⟩
      obtain rfl : n = n' := Option.some.inj (h.symm.trans hn')
      omega
    · exact .passed (Nat.le_add_right ..) (Nat.le_add_right ..) (by omega) (by omega)
  · exact .beyond (Nat.le_refl _) hposition (by omega) ⟨n, h, by omega⟩

theorem literal_walks : Walks input depth 1 1 Walker.literal Cursor.literal := by
  intro position hposition reads
  refine (expect_walks hshort _ position hposition reads).bind fun _ p₁ _ hopen h₁ hp₁ => ?_
  refine (run_walks hshort _ p₁ hp₁ _).bind fun digits p₂ _ hdigits h₂ hp₂ => ?_
  rcases hn : Octet.number? UInt64.size digits with _ | n
  · exact walksAt_stop nofun (Nat.zero_le _) hp₂
  refine (eat_walks hshort _ p₂ hp₂ _).bind fun signed p₃ _ hsigned h₃ hp₃ => ?_
  refine ((expect_walks hshort _).relax p₃ hp₃ _).bind fun _ p₄ _ hclose h₄ hp₄ => ?_
  refine ((expect_walks hshort _).relax p₄ hp₄ _).bind fun _ p₅ _ hcr h₅ hp₅ => ?_
  refine ((expect_walks hshort _).relax p₅ hp₅ _).bind fun _ p₆ _ hlf h₆ hp₆ => ?_
  have hannounced : announced (input.take p₆) = some n := by
    refine announced_of_mark hn hposition hp₆ (?_ : _ = mark signed digits ++ _ ++ _)
    rw [Cursor.expect_passed hopen, Cursor.takeWhile_passed hdigits, Cursor.eat_passed hsigned,
      Cursor.expect_passed hclose, Cursor.expect_passed hcr, Cursor.expect_passed hlf]
    simp [mark]
  exact (take_walks hp₆ hannounced).bind fun bytes p₇ _ _ h₇ hp₇ => walksAt_pure (by omega) hp₇

end

/-! ### Values -/

section
variable {α : Type} {input : Bytes} (hshort : input.length < UInt64.size) {position depth reads low free : Nat}
include hshort

/-- A run is passed, whatever is in it. -/
theorem WalksAt.pass {p : UInt8 → Bool} {w : Walker α} {r : Cursor.Reader α} (hposition : position ≤ input.length)
    (h : ∀ position', position ≤ position' → position' ≤ input.length →
      WalksAt input position' depth reads low 0 w r) :
    WalksAt input position depth reads low 0
      (Walker.rounds >>= fun n => Walker.passWhile p n >>= fun _ => w) (Cursor.takeWhile p >>= fun _ => r) := by
  have hrounds : input.length - position < input.length + 1 := Nat.lt_succ_of_le (Nat.sub_le ..)
  unfold WalksAt
  show Walked input position depth reads low 0
    ((Walker.passWhile p (input.length + 1) >>= fun _ => w) input ⟨position, depth, reads⟩) _
  rw [Walker.bind_apply, Walker.passWhile_run hshort hrounds, Cursor.bind_apply, Cursor.takeWhile_within]
  exact Walked.after (h _ (Nat.le_add_right ..) (Scanner.taken_le hposition)) (Nat.le_add_right ..) (by omega)

omit hshort in
theorem WalksAt.atEnd {next : Bool → Walker α} {next' : Cursor → Cursor.Reader α}
    (h : WalksAt input position depth reads low free (next (Cursor.within input position).atEnd)
      (next' (.within input position))) :
    WalksAt input position depth reads low free (Walker.atEnd >>= next) (get >>= next') := by
  have hend : Walker.atEnd input ⟨position, depth, reads⟩ =
      (.ok (Cursor.within input position).atEnd, ⟨position, depth, reads⟩) := by
    show (match input[position]? with | none => _ | some b => _ : Walker Bool) _ _ = _
    rcases hb : input[position]? with _ | b
    · rw [Cursor.within_end hb]
      rfl
    · rw [Cursor.within_next hb]
      rfl
  unfold WalksAt
  rw [Walker.bind_apply, hend]
  exact h

section
variable {one : Walker Value}

theorem valuesFrom_walks {one' : Cursor.Reader Value} (h : Walks input depth 1 0 one one') (close : UInt8)
    {rounds limit : Nat} (hlow : low ≤ position + 1) (hposition : position ≤ input.length)
    (hrounds : input.length - position < rounds) (hlimit : input.length - position < limit)
    (taken : List Value) :
    WalksAt input position depth reads low 0 (Walker.valuesFrom one close rounds taken)
      (Cursor.valuesFrom one' close limit taken) := by
  induction rounds generalizing position reads limit taken with
  | zero => exact absurd hrounds (Nat.not_lt_zero _)
  | succ rounds ih =>
    obtain ⟨limit, rfl⟩ := Nat.exists_eq_succ_of_ne_zero (Nat.ne_zero_of_lt hlimit)
    refine .pass hshort hposition fun p₁ h₁ hp₁ => ?_
    refine (eat_walks hshort close p₁ hp₁ _).bind fun closed p₂ _ heat h₂ hp₂ => ?_
    refine .ite (fun hclosed => walksAt_pure ?_ hp₂) fun _ => .atEnd ?_
    · have hpassed := congrArg List.length (Cursor.eat_passed heat)
      rw [if_pos hclosed, List.length_append, List.length_singleton, List.length_drop, List.length_drop] at hpassed
      omega
    refine .ite (fun _ => walksAt_stop nofun (Nat.zero_le _) hp₂) fun _ => ?_
    refine (h p₂ hp₂ _).bind fun v p₃ _ _ h₃ hp₃ => ?_
    exact ih (by omega) hp₃ (by omega) (by omega) (v :: taken)

theorem valuesUntil_walks {one' : Cursor.Reader Value} (h : Walks input depth 1 0 one one') (close : UInt8) :
    Walks input depth 1 0 (Walker.rounds >>= fun n => Walker.valuesFrom one close n [])
      (Cursor.valuesUntil one' close) := by
  intro position hposition reads
  have hlimit : input.length - position < (input.drop position).length + 1 := by
    rw [List.length_drop]
    exact Nat.lt_succ_self _
  exact valuesFrom_walks hshort h close (Nat.le_refl _) hposition
    (Nat.lt_succ_of_le (Nat.sub_le ..)) hlimit []

omit hshort in
/-- Within a bracket the spot is one deeper, and after it as deep as before, whether or not there is a fault. -/
theorem WalksAt.inside {w : Walker α} {r : Cursor.Reader α}
    (h : WalksAt input position (depth + 1) reads low free w r) :
    WalksAt input position depth reads low free (Walker.inside w) r := by
  unfold WalksAt at h ⊢
  unfold Walker.inside
  dsimp only
  generalize w input ⟨position, depth + 1, reads⟩ = x at h ⊢
  generalize r (.within input position) = z at h ⊢
  cases h with
  | passed hlow hstart hline hreads => exact .passed hlow hstart hline hreads
  | fault hroom hstart hline hreads => exact .fault hroom hstart hline hreads
  | beyond hstart hline hreads hbeyond => exact .beyond hstart hline hreads hbeyond

/-- What reads the members of a list: nothing where the list lies too deep. -/
def Reaches (input : Bytes) (depth : Nat) (one : Walker Value) : Option (Cursor.Reader Value) → Prop
  | none => Cursor.maxDepth ≤ depth
  | some r => depth < Cursor.maxDepth ∧ Walks input (depth + 1) 1 0 one r

theorem nested_walks {one' : Cursor.Reader Value} (hdepth : depth < Cursor.maxDepth)
    (h : Walks input (depth + 1) 1 0 one one') (close : UInt8) :
    Walks input depth 1 0 (Walker.nested one close) (Cursor.valuesUntil one' close) := by
  intro position hposition reads
  unfold WalksAt
  rw [Walker.nested_run, if_neg (Nat.not_le_of_lt hdepth)]
  exact WalksAt.inside (valuesUntil_walks hshort h close position hposition reads)

theorem bracket_walks {one' : Option (Cursor.Reader Value)} {b : UInt8} (hb : input[position]? = some b)
    (h : Reaches input depth one one') (close : UInt8) (make : List Value → Value) :
    WalksAt input position depth reads (position + 1) 1
      (Walker.step >>= fun _ => Walker.nested one close >>= fun values => pure (make values))
      (Cursor.bracket one' close make) := by
  have hlt : position < input.length := (List.getElem?_eq_some_iff.mp hb).1
  have hskip : (Cursor.within input position).skip 1 = .within input (position + 1) := Cursor.within_skip 1
  cases one' with
  | none =>
    have hdepth : Cursor.maxDepth ≤ depth := h
    refine .step hshort hb (r := Cursor.fail .tooDeep) (congrArg (Cursor.fail .tooDeep) hskip) ?_
    unfold WalksAt
    rw [Walker.bind_apply, Walker.nested_run, if_pos hdepth]
    exact .fault nofun (Nat.le_refl _) hlt (by omega)
  | some r =>
    refine .step hshort hb (r := make <$> Cursor.valuesUntil r close)
      (congrArg (make <$> Cursor.valuesUntil r close) hskip) ?_
    rw [map_eq_pure_bind]
    refine (nested_walks hshort h.1 h.2 close (position + 1) hlt reads).bind fun values p₂ _ _ h₂ hp₂ => ?_
    exact walksAt_pure (by omega) hp₂

theorem valueBy_walks {one' : Option (Cursor.Reader Value)} (h : Reaches input depth one one') :
    Walks input depth 1 0 (Walker.valueBy one) (Cursor.valueBy Cursor.literal one') := by
  intro position hposition reads
  refine .begin (.peek ?_)
  rcases hb : input[position]? with _ | b
  · exact WalksAt.congr (r := Cursor.fail .endOfLine) (Cursor.valueBy_end hb)
      (walksAt_stop nofun (Nat.le_refl _) hposition)
  · refine WalksAt.congr (Cursor.valueBy_next hb) ?_
    refine .ite (fun _ => bracket_walks hshort hb h _ .list) fun _ =>
      .ite (fun _ => bracket_walks hshort hb h _ .bracketed) fun _ =>
      .ite (fun _ => quoted_walks hshort position hposition _) fun _ =>
      .ite (fun _ => literal_walks hshort position hposition _) fun _ =>
      .ite (fun _ => atom_walks hshort position hposition _) fun _ =>
      walksAt_stop nofun (Nat.le_refl _) hposition

/-- The calls within each other are no more than the levels that are left. -/
theorem valueWithin_walks {calls : Nat} (hcalls : Cursor.maxDepth - depth ≤ calls) :
    Walks input depth 1 0 (Walker.valueWithin (calls + 1))
      (Cursor.valueWithin Cursor.literal (Cursor.maxDepth - depth)) := by
  generalize hlevels : Cursor.maxDepth - depth = levels at hcalls
  induction levels generalizing depth calls with
  | zero => exact valueBy_walks hshort (Nat.le_of_sub_eq_zero hlevels)
  | succ levels ih =>
    obtain ⟨calls, rfl⟩ := Nat.exists_eq_succ_of_ne_zero (Nat.ne_zero_of_lt hcalls)
    exact valueBy_walks hshort ⟨by omega, ih (by omega) (by omega)⟩

end

theorem value_walks :
    Walks input depth 1 0 Walker.value (Cursor.valueWithin Cursor.literal (Cursor.maxDepth - depth)) :=
  valueWithin_walks hshort (Nat.sub_le ..)

theorem values_walks (close : UInt8) :
    Walks input depth 1 0 (Walker.values close)
      (Cursor.valuesUntil (Cursor.valueWithin Cursor.literal (Cursor.maxDepth - depth)) close) :=
  valuesUntil_walks hshort (value_walks hshort) close

omit hshort in
/-- How many levels are left is of no matter to a value that does not open a bracket. -/
theorem value_unbracketed (levels : Nat)
    (h : input[position]? = some Octet.quote ∨ input[position]? = some Octet.openBrace) :
    Cursor.value Cursor.literal (.within input position) =
      Cursor.valueWithin Cursor.literal levels (.within input position) := by
  have hany : ∀ one, Cursor.valueBy Cursor.literal one (.within input position) =
      Cursor.valueBy Cursor.literal none (.within input position) := by
    intro one
    rcases h with h | h <;> rw [Cursor.within_next h] <;> rfl
  cases levels with
  | zero => exact hany _
  | succ levels => exact (hany _).trans (hany _).symm

theorem string_walks : Walks input depth 1 0 Walker.string (Cursor.string Cursor.literal) := by
  intro position hposition reads
  have hnext : ∀ byte, (Cursor.within input position).isNext byte = decide (input[position]? = some byte) :=
    fun byte => by rw [Bool.eq_iff_iff, Cursor.within_isNext, decide_eq_true_iff]
  refine .peek (.look ?_)
  rw [hnext, hnext]
  refine .ite (fun hmark => ?_) fun _ => ?_
  · have hmark' : input[position]? = some Octet.quote ∨ input[position]? = some Octet.openBrace := by
      simpa using hmark
    exact .congr (value_unbracketed _ hmark') (value_walks hshort position hposition reads)
  · exact .begin (someRun_walks hshort (by decide) (fun bytes => walks_pure _) position hposition _)

end

end Mailroom
