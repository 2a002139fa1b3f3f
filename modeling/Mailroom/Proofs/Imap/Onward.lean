import Mailroom.Proofs.Imap.Walking

/-! Onward through a line.

Whatever a reader is called for, and wherever it stands, it comes to an end, never goes back and never leaves the
line, closes the brackets it has opened, and says where it stood if it finds the line at fault: that a walk and a
reader come to an outcome together says all of it (`WalksAt.onward`). A `ReaderScript` calls a reader again and
again, and may choose its calls by what it was told before, so what holds of one call holds of a whole script, by
induction on the script. A response is understood by a script (`response_scripted`). -/
namespace Mailroom
open Mailroom.Frame

/-! ### One call -/

/-- What a reader may be called for. -/
inductive ReaderCall
  | word
  | restOfLine
  | string
  | value
  | values (close : UInt8)
  | eat (byte : UInt8)
  | expect (byte : UInt8)

namespace ReaderCall

/-- What the caller is told if nothing is wrong. -/
abbrev Result : ReaderCall → Type
  | word | restOfLine => String
  | string | value => Value
  | values _ => List Value
  | eat _ => Bool
  | expect _ => Unit

/-- The call on a walker. -/
def walk : (call : ReaderCall) → Walker call.Result
  | word => Walker.word
  | restOfLine => Walker.restOfLine
  | string => Walker.string
  | value => Walker.value
  | values close => Walker.values close
  | eat byte => Walker.eat byte
  | expect byte => Walker.expect byte

/-- The call on a reader of cursors, with so many brackets open. -/
def reader (depth : Nat) : (call : ReaderCall) → Cursor.Reader call.Result
  | word => Cursor.word
  | restOfLine => Cursor.restOfLine
  | string => Cursor.string Cursor.literal
  | value => Cursor.valueWithin Cursor.literal (Cursor.maxDepth - depth)
  | values close => Cursor.valuesUntil (Cursor.valueWithin Cursor.literal (Cursor.maxDepth - depth)) close
  | eat byte => Cursor.eat byte
  | expect byte => Cursor.expect byte

/-- How many bytes have to be passed if nothing is wrong. -/
def least : ReaderCall → Nat
  | word | string | value | values _ | expect _ => 1
  | restOfLine | eat _ => 0

end ReaderCall

section
variable {α : Type}

/-- A walk from a spot goes onward: it comes to `x` where a reader comes to `z`. -/
structure Onward (input : Bytes) (spot : Spot) (least : Nat) (x : Except Stop α × Spot)
    (z : Except Fault (α × Cursor)) : Prop where
  forward : spot.position ≤ x.2.position
  inLine : x.2.position ≤ input.length
  told : ∀ a, x.1 = .ok a → z = .ok (a, .within input x.2.position)
  passed : ∀ a, x.1 = .ok a → spot.position + least ≤ x.2.position
  fault : ∀ position reason, x.1 = .error (.fault position reason) →
    z = .error (.malformed position reason) ∧ position = x.2.position
  /-- A string that is not all there puts the line at fault, unless it would end beyond all addresses. -/
  room : ∀ position, x.1 = .error (.fault position .truncated) → ¬ Beyond input position
  /-- In that case, and in no other, the walk is given up. -/
  abort : ∀ cause, x.1 = .error (.abort cause) ↔ z = .error (.unreadable .lengthOverflow) ∧ cause = .overflow
  beyond : ∀ cause, x.1 = .error (.abort cause) → Beyond input x.2.position
  /-- Brackets are closed again, unless the walk is given up within them. -/
  depth : (∀ cause, x.1 ≠ .error (.abort cause)) → x.2.depth = spot.depth
  /-- No more words and values have been begun than bytes passed. -/
  reads : ∀ a, x.1 = .ok a → x.2.reads + spot.position ≤ spot.reads + x.2.position
  /-- The last of them may have failed. -/
  begun : x.2.reads + spot.position ≤ spot.reads + x.2.position + 1

theorem Walked.onward {input : Bytes} {position depth reads least : Nat} {x : Except Stop α × Spot}
    {z : Except Fault (α × Cursor)} (h : Walked input position depth reads (position + least) 0 x z) :
    Onward input ⟨position, depth, reads⟩ least x z := by
  cases h with
  | passed hlow hstart hline hreads =>
    exact {
      forward := hstart
      inLine := hline
      told := by rintro a ⟨⟩; rfl
      passed := fun _ _ => hlow
      fault := nofun
      room := nofun
      abort := fun _ => iff_of_false nofun nofun
      beyond := nofun
      depth := fun _ => rfl
      reads := fun _ _ => hreads
      begun := Nat.le_succ_of_le hreads }
  | fault hroom hstart hline hreads =>
    exact {
      forward := hstart
      inLine := hline
      told := nofun
      passed := nofun
      fault := by rintro position reason ⟨⟩; exact ⟨rfl, rfl⟩
      room := by rintro position ⟨⟩; exact hroom rfl
      abort := fun _ => iff_of_false nofun nofun
      beyond := nofun
      depth := fun _ => rfl
      reads := nofun
      begun := hreads }
  | beyond hstart hline hreads hbeyond =>
    exact {
      forward := hstart
      inLine := hline
      told := nofun
      passed := nofun
      fault := nofun
      room := nofun
      abort := fun cause => ⟨by rintro ⟨⟩; exact ⟨rfl, rfl⟩, by rintro ⟨-, rfl⟩; rfl⟩
      beyond := fun _ _ => hbeyond
      depth := fun h => absurd rfl (h _)
      reads := nofun
      begun := hreads }

end

/-- Where a walker walks with it, a reader stays in the line. -/
theorem Walks.within {α : Type} {input : Bytes} {position depth least free : Nat} {w : Walker α}
    {r : Cursor.Reader α} (h : Walks input depth least free w r) (hposition : position ≤ input.length) {a : α}
    {c : Cursor} (hread : r (.within input position) = .ok (a, c)) :
    ∃ p, position + least ≤ p ∧ p ≤ input.length ∧ c = .within input p := by
  have hwalk := h position hposition 0
  unfold WalksAt at hwalk
  rw [hread] at hwalk
  generalize w input ⟨position, depth, 0⟩ = x at hwalk
  cases hwalk with
  | passed hlow _ hline => exact ⟨_, hlow, hline, rfl⟩

section
variable {input : Bytes} (hshort : input.length < UInt64.size) {position position' depth : Nat}
include hshort

theorem ReaderCall.walks (call : ReaderCall) : Walks input depth call.least 0 call.walk (call.reader depth) := by
  cases call with
  | word => exact word_walks hshort
  | restOfLine => exact restOfLine_walks hshort
  | string => exact string_walks hshort
  | value => exact value_walks hshort
  | values close => exact values_walks hshort close
  | eat byte => exact eat_walks hshort byte
  | expect byte => exact fun position hposition reads =>
      (expect_walks hshort byte position hposition reads).mono (Nat.le_refl _) (Nat.zero_le _)

omit hshort in
/-- The last byte that is passed closes the list. -/
theorem valuesFrom_closes {one : Walker Value} {one' : Cursor.Reader Value} (h : Walks input depth 1 0 one one')
    {close : UInt8} {limit : Nat} {taken values : List Value} (hposition : position ≤ input.length)
    (hread : Cursor.valuesFrom one' close limit taken (.within input position) =
      .ok (values, .within input position')) :
    ∃ p, position ≤ p ∧ input[p]? = some close ∧ position' = p + 1 := by
  induction limit generalizing position taken with
  | zero => cases hread
  | succ limit ih =>
    unfold Cursor.valuesFrom at hread
    rw [Cursor.bind_apply, Cursor.takeWhile_within] at hread
    dsimp only at hread
    have hbehind := Nat.le_add_right position (Scanner.taken input position (· == Octet.space)).length
    have hline := Scanner.taken_le (p := (· == Octet.space)) hposition
    generalize position + (Scanner.taken input position (· == Octet.space)).length = p₁ at hread hbehind hline
    rw [Cursor.bind_apply, Cursor.eat_within] at hread
    by_cases hclose : input[p₁]? = some close
    · rw [if_pos hclose] at hread
      cases hread
      exact ⟨p₁, hbehind, hclose, rfl⟩
    · rw [if_neg hclose] at hread
      change (if (Cursor.within input p₁).atEnd then _ else _ : Cursor.Reader (List Value)) _ = _ at hread
      split at hread
      next => cases hread
      next =>
        rw [Cursor.bind_apply] at hread
        split at hread
        next hone =>
          obtain ⟨p₂, hafter, hline, rfl⟩ := h.within hline hone
          obtain ⟨p, hp, hlast⟩ := ih hline hread
          exact ⟨p, by omega, hlast⟩
        next => cases hread

end

/-! ### Scripts -/

/-- One call after another. -/
inductive ReaderScript (α : Type)
  | done (a : α)
  | call (call : ReaderCall) (next : call.Result → ReaderScript α)

namespace ReaderScript
variable {α β : Type}

/-- The script on a walker. -/
def walk : ReaderScript α → Walker α
  | done a => pure a
  | call c next => c.walk >>= fun result => (next result).walk

/-- The script on a reader of cursors, with so many brackets open. -/
def reader (depth : Nat) : ReaderScript α → Cursor.Reader α
  | done a => pure a
  | call c next => c.reader depth >>= fun result => (next result).reader depth

/-- One script after another. -/
def bind (script : ReaderScript α) (next : α → ReaderScript β) : ReaderScript β :=
  match script with
  | done a => next a
  | call c rest => call c fun result => (rest result).bind next

theorem reader_bind (depth : Nat) (script : ReaderScript α) (next : α → ReaderScript β) :
    (script.bind next).reader depth = script.reader depth >>= fun a => (next a).reader depth := by
  induction script with
  | done a => rw [reader, pure_bind, bind]
  | call c rest ih => simp only [bind, reader, ih, bind_assoc]

/-- What one call keeps, a script keeps. -/
theorem walks {input : Bytes} (hshort : input.length < UInt64.size) (depth : Nat) (script : ReaderScript α) :
    Walks input depth 0 0 script.walk (script.reader depth) := by
  induction script with
  | done a => exact walks_pure a
  | call c next ih => exact (c.walks hshort).relax.bind ih

end ReaderScript

/-! ### The script of a response -/

/-- What may be wrong with what a caller was told. -/
inductive Objection
  | rejected (reason : Reason)
  /-- A mailbox name cannot be decoded. -/
  | mailboxName

/-- It is reported at the front of the line. -/
def Objection.fault : Objection → Fault
  | .rejected reason => .malformed 0 reason
  | .mailboxName => .unreadable .mailboxName

namespace Cursor
variable {α β : Type}

/-- What a script has come to is the answer, or an objection. -/
def settle : Except Objection α → Reader α
  | .ok a => pure a
  | .error objection => fun _ => .error objection.fault

/-- A script does what the reader does. -/
def Scripted (r : Reader α) : Prop :=
  ∃ script : ReaderScript (Except Objection α), (script.reader 0 >>= settle) = r

theorem scripted_pure (a : α) : Scripted (pure a) := ⟨.done (.ok a), pure_bind ..⟩

theorem scripted_object (objection : Objection) :
    Scripted (fun _ => .error objection.fault : Reader α) := ⟨.done (.error objection), pure_bind ..⟩

theorem scripted_call (call : ReaderCall) : Scripted (call.reader 0) :=
  ⟨.call call fun result => .done (.ok result), by simp [ReaderScript.reader, settle]⟩

theorem Scripted.bind {r : Reader α} {next : α → Reader β} (h : Scripted r) (hnext : ∀ a, Scripted (next a)) :
    Scripted (r >>= next) := by
  obtain ⟨script, rfl⟩ := h
  choose scripts hscripts using hnext
  refine ⟨script.bind fun
    | .ok a => scripts a
    | .error objection => .done (.error objection), ?_⟩
  rw [ReaderScript.reader_bind, bind_assoc, bind_assoc]
  refine congrArg (script.reader 0 >>= ·) (funext fun outcome => ?_)
  cases outcome with
  | ok a => exact hscripts a
  | error objection => rfl

theorem scripted_understood (x : Except Reason α) : Scripted (Response.understood x) := by
  cases x with
  | ok a => exact scripted_pure a
  | error reason => exact scripted_object (.rejected reason)

end Cursor

namespace Response
open Cursor

theorem codeAndText_scripted : Scripted (codeAndText literal) := by
  refine (scripted_call (.eat Octet.space)).bind fun _ => (scripted_call (.eat Octet.openBracket)).bind fun
    | true => ?_
    | false => ?_
  · exact (scripted_call (.values Octet.closeBracket)).bind fun inside =>
      (scripted_call (.eat Octet.space)).bind fun _ =>
      (scripted_call .restOfLine).bind fun text => scripted_pure (some (codeOf inside), text)
  · exact (scripted_call .restOfLine).bind fun text => scripted_pure (none, text)

theorem spacedList_scripted : Scripted (spacedList literal) :=
  (scripted_call (.expect Octet.space)).bind fun _ => (scripted_call (.expect Octet.openParen)).bind fun _ =>
    scripted_call (.values Octet.closeParen)

theorem listing_scripted : Scripted (listing literal) := by
  refine spacedList_scripted.bind fun attributes => (scripted_call (.expect Octet.space)).bind fun _ =>
    (scripted_call .value).bind fun delimiter => (scripted_call (.expect Octet.space)).bind fun _ =>
    (scripted_call .string).bind fun name => ?_
  split
  · exact scripted_object (.rejected .listingWithoutName)
  · split
    · exact scripted_pure _
    · exact scripted_object .mailboxName

theorem numbered_scripted (n : Nat) : Scripted (numbered literal n) := by
  refine (scripted_call (.expect Octet.space)).bind fun _ => (scripted_call .word).bind fun keyword => ?_
  dsimp only
  split
  · exact scripted_pure _
  · exact scripted_pure _
  · exact scripted_pure _
  · exact spacedList_scripted.bind fun items => (scripted_understood (FetchItem.readAll items)).bind fun _ =>
      scripted_pure _
  · exact scripted_pure _

theorem keyed_scripted (keyword : String) : Scripted (keyed literal keyword) := by
  unfold keyed
  split
  · exact (scripted_call .restOfLine).bind fun _ => scripted_pure _
  · exact listing_scripted.bind fun _ => scripted_pure _
  · exact listing_scripted.bind fun _ => scripted_pure _
  · exact (scripted_call .restOfLine).bind fun rest => (scripted_understood (found rest)).bind fun _ =>
      scripted_pure _
  · exact spacedList_scripted.bind fun _ => scripted_pure _
  · exact scripted_pure _

theorem untaggedData_scripted : Scripted (untaggedData literal) := by
  refine (scripted_call .word).bind fun first => ?_
  split
  · exact numbered_scripted _
  · split
    · exact codeAndText_scripted.bind fun _ => scripted_pure _
    · exact keyed_scripted _

theorem completion_scripted (tag : String) : Scripted (completion literal tag) := by
  refine (scripted_call .word).bind fun condition => ?_
  split
  · exact scripted_object (.rejected (.unknownStatus condition))
  · exact codeAndText_scripted.bind fun _ => scripted_pure _

/-- A response is understood by a script. -/
theorem response_scripted : Scripted (response literal) := by
  refine (scripted_call (.eat Octet.plus)).bind fun
    | true => ?_
    | false => ?_
  · exact (scripted_call (.eat Octet.space)).bind fun _ => (scripted_call .restOfLine).bind fun _ =>
      scripted_pure _
  · refine (scripted_call .word).bind fun tag => (scripted_call (.expect Octet.space)).bind fun _ => ?_
    split
    · exact untaggedData_scripted.bind fun _ => scripted_pure _
    · exact completion_scripted tag

/-- What is wrong with a response is found within its line. -/
theorem position_le_length {line : Bytes} (hshort : line.length < UInt64.size) {position : Nat} {reason : Reason}
    (h : read line = .error (.malformed position reason)) : position ≤ line.length := by
  obtain ⟨script, hscript⟩ := response_scripted
  have hwalk := script.walks hshort 0 0 (Nat.zero_le _) 0
  have hread : ((script.reader 0 >>= settle) (.within line 0)).map Prod.fst = .error (.malformed position reason) :=
    hscript ▸ h
  rw [Cursor.bind_apply] at hread
  unfold WalksAt at hwalk
  generalize script.walk line ⟨0, 0, 0⟩ = x at hwalk
  generalize script.reader 0 (.within line 0) = z at hwalk hread
  cases hwalk with
  | @passed outcome p =>
    rcases outcome with (_ | _) | _
    · cases hread
      exact Nat.zero_le _
    · cases hread
    · cases hread
  | fault _ _ hline =>
    cases hread
    exact hline
  | beyond => cases hread

end Response

/-- Wherever a reader stands in a line, and however many brackets are open there, every call on it comes to an
end, goes onward, and does what the reader of cursors does; values that are read up to a closing bracket end right
behind it. The same holds of every script of calls, one of which understands a response; so whatever is wrong with
a response is found within its line. -/
theorem reader_onward {input : Bytes} (hshort : input.length < UInt64.size) {spot : Spot}
    (hspot : spot.position ≤ input.length) :
    (∀ call : ReaderCall, Onward input spot call.least (call.walk input spot)
      (call.reader spot.depth (.within input spot.position))) ∧
    (∀ close values, ((ReaderCall.values close).walk input spot).1 = .ok values →
      ∃ p, spot.position ≤ p ∧ input[p]? = some close ∧
        ((ReaderCall.values close).walk input spot).2.position = p + 1) ∧
    (∀ (α : Type) (script : ReaderScript α), Onward input spot 0 (script.walk input spot)
      (script.reader spot.depth (.within input spot.position))) ∧
    Cursor.Scripted (Response.response Cursor.literal) ∧
    ∀ position reason, Response.read input = .error (.malformed position reason) → position ≤ input.length := by
  have hcall : ∀ call : ReaderCall, Onward input spot call.least (call.walk input spot)
      (call.reader spot.depth (.within input spot.position)) :=
    fun call => (call.walks hshort spot.position hspot spot.reads).onward
  refine ⟨hcall, fun close values hvalues => ?_, fun α script => ?_, Response.response_scripted,
    fun position reason => Response.position_le_length hshort⟩
  · exact valuesFrom_closes (value_walks hshort) hspot ((hcall (.values close)).told values hvalues)
  · exact (script.walks hshort spot.depth spot.position hspot spot.reads).onward

/-- A list of a word and of a string that is announced to be as long as the largest address. -/
def overlongList : Bytes := Octet.ofText "(a \x7b18446744073709551615\x7d\r\n"

/-- The list stays open where the walk is given up. -/
theorem reader_onward_overlong :
    overlongList.length < UInt64.size ∧
      (ReaderCall.value.walk overlongList ⟨0, 0, 0⟩).1.map (fun _ => ()) = .error (.abort .overflow) ∧
      (ReaderCall.value.walk overlongList ⟨0, 0, 0⟩).2 = ⟨27, 1, 3⟩ ∧ Beyond overlongList 27 := by
  have hshort : overlongList.length < UInt64.size := by decide +kernel
  have hstop : (ReaderCall.value.walk overlongList ⟨0, 0, 0⟩).1.map (fun _ => ()) =
      .error (.abort .overflow) := by decide +kernel
  have hspot : (ReaderCall.value.walk overlongList ⟨0, 0, 0⟩).2 = ⟨27, 1, 3⟩ := by decide +kernel
  have honward := (@reader_onward overlongList hshort ⟨0, 0, 0⟩ (Nat.zero_le _)).1 .value
  have habort : (ReaderCall.value.walk overlongList ⟨0, 0, 0⟩).1 = .error (.abort .overflow) := by
    generalize (ReaderCall.value.walk overlongList ⟨0, 0, 0⟩).1 = outcome at hstop
    cases outcome <;> cases hstop
    rfl
  have hbeyond := honward.beyond .overflow habort
  rw [hspot] at hbeyond
  exact ⟨hshort, hstop, hspot, hbeyond⟩

end Mailroom
