import Mailroom.Proofs.Imap.Agreement

/-! Response lines read by index.

A `Cursor` carries the bytes that are left, so it cannot look past the end of a line. A machine keeps
the whole line and a position: it looks bytes up by index, cuts runs out by their two ends, adds
addresses that may have no room for the sum, and counts how deep it is in brackets. Here the readers of
values are written that way, with every such step checked: a `Scanner` whose check fails aborts, which
is neither an answer nor a fault of the line, and so does one whose loop or recursion would not end.

The `actual` host has addresses of 64 bits and decodes mailbox names. On the `ideal` one a scan meets
neither of the two things that can go wrong on it: every number is an address, and a mailbox name is
taken as it is written. -/
namespace Mailroom
open Mailroom.Frame

/-- Why a scan is given up on the spot. -/
inductive Abort
  /-- A line or a list is indexed or cut outside its bounds. -/
  | outOfRange
  /-- A sum of addresses has no address, or a difference is negative. -/
  | overflow
  /-- A loop or a recursion does not come to its end. -/
  | endless
  /-- A mailbox name cannot be decoded. -/
  | mailboxName
  deriving DecidableEq, Repr

/-- Why a scan has no answer: the line is at fault, or the scan is given up. -/
inductive Stop
  | fault (position : Nat) (reason : Reason)
  | abort (cause : Abort)
  deriving DecidableEq, Repr

/-- Where a scan stands. -/
structure Place where
  position : Nat
  /-- How many brackets are open around the position. -/
  depth : Nat
  deriving DecidableEq

/-- What a scan relies on. -/
structure Host where
  /-- Whether a number is an address. -/
  hasAddress : Nat → Bool
  /-- The name that a written mailbox name stands for. -/
  decode : String → Option String

/-- Addresses have 64 bits. -/
def Host.actual : Host := ⟨fun n => n < UInt64.size, MailboxName.decode⟩

/-- Every number is an address, and a written name stands for itself. -/
def Host.ideal : Host := ⟨fun _ => true, some⟩

/-- The line that is scanned and the host that it is scanned on. -/
structure Task where
  input : Bytes
  host : Host

/-- A scanner moves its place along the line of its task. -/
abbrev Scanner (α : Type) := ReaderT Task (StateT Place (Except Stop)) α

namespace Scanner

/-- Finds the line at fault here. -/
def stop {α : Type} (reason : Reason) : Scanner α := fun _ p => .error (.fault p.position reason)

/-- Finds the line at fault once its pieces are understood. -/
def reject {α : Type} (reason : Reason) : Scanner α := fun _ _ => .error (.fault 0 reason)

/-- Gives up. -/
def abort {α : Type} (cause : Abort) : Scanner α := fun _ _ => .error (.abort cause)

/-- The next byte, if there is one. -/
def peek : Scanner (Option UInt8) := fun task p => .ok (task.input[p.position]?, p)

/-- The position. -/
def position : Scanner Nat := fun _ p => .ok (p.position, p)

/-- Goes to a position. -/
def goTo (position : Nat) : Scanner Unit := fun _ p => .ok ((), { p with position })

/-- The sum of two addresses. -/
def sum (a b : Nat) : Scanner Nat := fun task p =>
  if task.host.hasAddress (a + b) then .ok (a + b, p) else .error (.abort .overflow)

/-- The bytes of the line between two positions. -/
def cut (start finish : Nat) : Scanner Bytes := fun task p =>
  if start ≤ finish ∧ finish ≤ task.input.length then
    .ok ((task.input.drop start).take (finish - start), p)
  else .error (.abort .outOfRange)

/-- How many rounds a loop over the line is granted: it takes one byte at least in every round but
the last. -/
def rounds : Scanner Nat := fun task p => .ok (task.input.length + 1, p)

/-- Passes one byte. -/
def step : Scanner Unit := do
  goTo (← sum (← position) 1)

/-- Passes `byte` if it is next, and says whether it was. -/
def eat (byte : UInt8) : Scanner Bool := do
  if (← peek) = some byte then
    step
    pure true
  else pure false

/-- Passes `byte`, which has to be next. -/
def expect (byte : UInt8) : Scanner Unit := do
  if (← peek) = some byte then step else stop (.expected byte)

/-- Whether the line ends here. -/
def atEnd : Scanner Bool := do
  match ← peek with
  | none => pure true
  | some b => pure (b == Octet.cr || b == Octet.lf)

/-- Passes bytes as long as `p` holds of them. -/
def passWhile (p : UInt8 → Bool) : Nat → Scanner Unit
  | 0 => abort .endless
  | rounds + 1 => do
    match ← peek with
    | none => pure ()
    | some b =>
      if p b then
        step
        passWhile p rounds
      else pure ()

/-- The bytes for which `p` holds, up to the first for which it does not. -/
def run (p : UInt8 → Bool) : Scanner Bytes := do
  let start ← position
  passWhile p (← rounds)
  cut start (← position)

/-- A run of one byte at least. -/
def someRun (p : UInt8 → Bool) (otherwise : Reason) : Scanner Bytes := do
  let start ← position
  passWhile p (← rounds)
  let finish ← position
  if start = finish then stop otherwise else cut start finish

/-- The bytes up to the next space. -/
def word : Scanner String := do
  let bytes ← someRun (fun b => Cursor.inLine b && b != Octet.space) .expectedWord
  match Utf8.strict? bytes with
  | some text => pure text
  | none => stop .wordNotText

/-- Everything up to the end of the line. -/
def restOfLine : Scanner String := do
  pure (Utf8.lossy (← run Cursor.inLine))

/-- A bare word. -/
def atom : Scanner Value := do
  pure (Cursor.ofWord (← someRun Cursor.isAtomByte .expectedAtom))

/-- The bytes of a quoted string after its opening mark. `taken` holds those so far, latest first. -/
def quotedFrom : Nat → Bytes → Scanner Bytes
  | 0, _ => abort .endless
  | rounds + 1, taken => do
    match ← peek with
    | none => stop .unterminated
    | some b =>
      if b = Octet.quote then
        step
        pure taken.reverse
      else if b = Octet.backslash then
        step
        match ← peek with
        | none => stop .danglingEscape
        | some escaped =>
          step
          quotedFrom rounds (escaped :: taken)
      else if Cursor.inLine b then
        step
        quotedFrom rounds (b :: taken)
      else stop .unterminated

/-- A string between quotation marks. -/
def quoted : Scanner Value := do
  expect Octet.quote
  pure (.quoted (← quotedFrom (← rounds) []))

/-- The next `n` bytes. Where they would end is worked out first. -/
def take (n : Nat) : Scanner Bytes := do
  let start ← position
  let finish ← sum start n
  if (← read).input.length < finish then stop .truncated
  else
    let bytes ← cut start finish
    goTo finish
    pure bytes

/-- A string of announced length. -/
def literal : Scanner Value := do
  expect Octet.openBrace
  let digits ← run Octet.isDigit
  match Octet.number? UInt64.size digits with
  | none => stop .badLength
  | some length =>
    let _ ← eat Octet.plus
    expect Octet.closeBrace
    expect Octet.cr
    expect Octet.lf
    let bytes ← take length
    pure (.literal bytes)

/-- Values up to `close`, which is passed. `one` scans a value, and `taken` holds those so far, latest
first. -/
def valuesFrom (one : Scanner Value) (close : UInt8) : Nat → List Value → Scanner (List Value)
  | 0, _ => abort .endless
  | rounds + 1, taken => do
    passWhile (· == Octet.space) (← Scanner.rounds)
    if ← eat close then pure taken.reverse
    else if ← atEnd then stop (.unclosed close)
    else
      let v ← one
      valuesFrom one close rounds (v :: taken)

/-- Opens a bracket. -/
def descend : Scanner Unit := fun task p =>
  if task.host.hasAddress (p.depth + 1) then .ok ((), { p with depth := p.depth + 1 })
  else .error (.abort .overflow)

/-- Closes a bracket. -/
def ascend : Scanner Unit := fun _ p =>
  if p.depth = 0 then .error (.abort .overflow) else .ok ((), { p with depth := p.depth - 1 })

/-- The values of a list after its opening bracket. -/
def nested (one : Scanner Value) (close : UInt8) : Scanner (List Value) := do
  if Cursor.maxDepth ≤ (← get).depth then stop .tooDeep
  else
    descend
    let values ← valuesFrom one close (← rounds) []
    ascend
    pure values

/-- One value, the members of a list by `one`. -/
def valueBy (one : Scanner Value) : Scanner Value := do
  match ← peek with
  | none => stop .endOfLine
  | some b =>
    if b = Octet.openParen then
      step
      pure (.list (← nested one Octet.closeParen))
    else if b = Octet.openBracket then
      step
      pure (.bracketed (← nested one Octet.closeBracket))
    else if b = Octet.quote then quoted
    else if b = Octet.openBrace then literal
    else if Cursor.inLine b then atom
    else stop .endOfLine

/-- One value. The scanner calls itself for the members of a list, within each other no more than the
given number of times. -/
def valueWithin : Nat → Scanner Value
  | 0 => abort .endless
  | calls + 1 => valueBy (valueWithin calls)

/-- One value. -/
def value : Scanner Value := valueWithin (Cursor.maxDepth + 1)

/-- Values up to `close`, outside all brackets. -/
def values (close : UInt8) : Scanner (List Value) := do
  valuesFrom value close (← rounds) []

/-- A string, in any of its three forms. -/
def string : Scanner Value := do
  let next ← peek
  if next = some Octet.quote || next = some Octet.openBrace then value
  else
    let bytes ← someRun (fun b => Cursor.inLine b && b != Octet.space && b != Octet.openParen &&
      b != Octet.closeParen) .expectedString
    pure (.atom (Utf8.lossy bytes))

/-! ### Responses -/

/-- The members of a list from a place on. -/
def membersFrom (values : List Value) (i : Nat) : Scanner (List Value) :=
  if i ≤ values.length then pure (values.drop i) else abort .outOfRange

/-- The member of a list at a place. -/
def member (values : List Value) (i : Nat) : Scanner Value :=
  match values[i]? with
  | some v => pure v
  | none => abort .outOfRange

/-- A list in pieces of two, without a member that is left over. -/
def pairsOf : List Value → List (List Value)
  | first :: second :: rest => [first, second] :: pairsOf rest
  | _ => []

/-- The settings that pairs of names and values make up. -/
def settings : List (List Value) → Scanner (List Parameter)
  | [] => pure []
  | pair :: rest => do
    match (← member pair 0).text? with
    | none => settings rest
    | some name =>
      match (← member pair 1).text? with
      | none => settings rest
      | some value => pure ((name, value) :: (← settings rest))

/-- The code that the values in brackets make up. All codes but one look for single values only, which
may be missing. -/
def codeOf (values : List Value) : Scanner Code := do
  match (values.head?.bind Value.text?).map Ascii.upper with
  | some "CAPABILITY" =>
    pure (.capability ((Response.texts (← membersFrom values 1)).map Capability.read))
  | _ => pure (Response.codeOf values)

/-- What follows a condition: a code in brackets, or none, and a text. -/
def codeAndText : Scanner (Option Code × String) := do
  let _ ← eat Octet.space
  if ← eat Octet.openBracket then
    let inside ← values Octet.closeBracket
    let _ ← eat Octet.space
    pure (some (← codeOf inside), ← restOfLine)
  else pure (none, ← restOfLine)

/-- Values in parentheses, after a space. -/
def spacedList : Scanner (List Value) := do
  expect Octet.space
  expect Octet.openParen
  values Octet.closeParen

/-- What has been understood, or the reason why it was not. -/
def understood {α : Type} (x : Except Reason α) : Scanner α :=
  match x with
  | .ok a => pure a
  | .error reason => reject reason

/-- Names and values in turn, from a place in the list on, after the items found before it. The place
counts values, each of which fills more than one address, and is never out of addresses itself. -/
def itemsFrom (values : List Value) : Nat → Nat → List FetchItem → Scanner (List FetchItem)
  | 0, _, _ => abort .endless
  | rounds + 1, i, items => do
    if values.length ≤ i then pure items
    else
      match (← member values i).text? with
      | none => reject .itemWithoutName
      | some text =>
        let name := Ascii.upper text
        match values[i + 1]? with
        | none => reject (.itemWithoutValue name)
        | some (.bracketed _) =>
          if values[i + 2]?.any FetchItem.isOrigin then itemsFrom values rounds (i + 4) items
          else itemsFrom values rounds (i + 3) items
        | some v =>
          let item ← understood (FetchItem.ofPair name v)
          itemsFrom values rounds (i + 2) (items ++ item.toList)

/-- The items in a list of names and values in turn. -/
def items (values : List Value) : Scanner (List FetchItem) :=
  itemsFrom values (values.length + 1) 0 []

/-- A listed mailbox: attributes, delimiter and name. -/
def listing : Scanner Mailbox.Listing := do
  let attributes := (Response.texts (← spacedList)).map Mailbox.Attribute.read
  expect Octet.space
  let delimiter := (← value).text?.bind fun s => s.toList.head?
  expect Octet.space
  match (← string).text? with
  | none => reject .listingWithoutName
  | some written =>
    match (← read).host.decode written with
    | some name => pure ⟨attributes, delimiter, name⟩
    | none => abort .mailboxName

/-- What a server tells about the message, or the number of messages, `n`. -/
def numbered (n : Nat) : Scanner Untagged := do
  expect Octet.space
  let keyword := Ascii.upper (← word)
  match keyword with
  | "EXISTS" => pure (.count n)
  | "RECENT" => pure (.recent n)
  | "EXPUNGE" => pure (.expunge n)
  | "FETCH" =>
    let values ← spacedList
    pure (.fetch n (← items values))
  | _ => pure (.other keyword)

/-- What a server tells under a keyword. -/
def keyed (keyword : String) : Scanner Untagged := do
  match keyword with
  | "CAPABILITY" => pure (.capability ((Blank.words (← restOfLine)).map Capability.read))
  | "LIST" | "LSUB" => pure (.listing (← listing))
  | "SEARCH" =>
    let rest ← restOfLine
    pure (.search (← understood (Response.found rest)))
  | "FLAGS" => pure (.flags ((Response.texts (← spacedList)).map Flag.read))
  | _ => pure (.other keyword)

/-- What a server tells after the star. -/
def untaggedData : Scanner Untagged := do
  let first ← word
  match Decimal.unsigned? UInt32.size first with
  | some n => numbered n
  | none =>
    match Condition.read? first with
    | some condition =>
      let (code, text) ← codeAndText
      pure (.condition condition code text)
    | none => keyed (Ascii.upper first)

/-- What follows the tag of a completed command. -/
def completion (tag : String) : Scanner Response := do
  let condition ← word
  match Condition.read? condition with
  | none => reject (.unknownStatus condition)
  | some condition =>
    let (code, text) ← codeAndText
    pure (.tagged tag condition code text)

/-- One response. -/
def response : Scanner Response := do
  if ← eat Octet.plus then
    let _ ← eat Octet.space
    pure (.continuation (← restOfLine))
  else
    let tag ← word
    expect Octet.space
    if tag = "*" then pure (.untagged (← untaggedData)) else completion tag

/-- The response on a line, scanned from its front and outside all brackets. -/
def parse (host : Host) (input : Bytes) : Except Stop Response :=
  (response ⟨input, host⟩ ⟨0, 0⟩).map Prod.fst

end Scanner

/-! ### What scanners of runs come to

On a host that has an address for every position in the line, no step along the line aborts. -/

/-- Every position in the line is an address. -/
def Host.Holds (host : Host) (input : Bytes) : Prop :=
  ∀ position ≤ input.length, host.hasAddress position = true

theorem Host.actual_holds {input : Bytes} (h : input.length < UInt64.size) : Host.actual.Holds input :=
  fun _ hposition => decide_eq_true (Nat.lt_of_le_of_lt hposition h)

theorem Host.ideal_holds (input : Bytes) : Host.ideal.Holds input := fun _ _ => rfl

namespace Scanner
variable {α β : Type} {input : Bytes} {host : Host} {depth position : Nat} {byte b : UInt8} {p : UInt8 → Bool}

theorem bind_apply (s : Scanner α) (next : α → Scanner β) (task : Task) (place : Place) :
    (s >>= next) task place = match s task place with
      | .ok (a, place') => next a task place'
      | .error stop => .error stop := by
  rcases h : s task place with stop | ⟨a, place'⟩ <;>
    simp only [bind, ReaderT.bind, StateT.bind, Except.bind, h]

theorem step_run (hhost : host.Holds input) (h : input[position]? = some b) :
    step ⟨input, host⟩ ⟨position, depth⟩ = .ok ((), ⟨position + 1, depth⟩) := by
  have hlt : position < input.length := (List.getElem?_eq_some_iff.mp h).1
  have hsum : sum position 1 ⟨input, host⟩ ⟨position, depth⟩ = .ok (position + 1, ⟨position, depth⟩) :=
    if_pos (hhost (position + 1) hlt)
  show (sum position 1 >>= goTo) ⟨input, host⟩ ⟨position, depth⟩ = _
  rw [bind_apply, hsum]
  rfl

theorem eat_run (hhost : host.Holds input) :
    eat byte ⟨input, host⟩ ⟨position, depth⟩ =
      if input[position]? = some byte then .ok (true, ⟨position + 1, depth⟩)
      else .ok (false, ⟨position, depth⟩) := by
  show (if input[position]? = some byte then _ else _ : Scanner Bool) _ _ = _
  split
  next h => rw [bind_apply, step_run hhost h]; rfl
  next => rfl

theorem expect_run (hhost : host.Holds input) :
    expect byte ⟨input, host⟩ ⟨position, depth⟩ =
      if input[position]? = some byte then .ok ((), ⟨position + 1, depth⟩)
      else .error (.fault position (.expected byte)) := by
  show (if input[position]? = some byte then _ else _ : Scanner Unit) _ _ = _
  split
  next h => exact step_run hhost h
  next => rfl

theorem drop_eq_cons (h : input[position]? = some b) :
    input.drop position = b :: input.drop (position + 1) := by
  obtain ⟨hlt, rfl⟩ := List.getElem?_eq_some_iff.mp h
  exact List.drop_eq_getElem_cons hlt

theorem passWhile_run (hhost : host.Holds input) {rounds : Nat}
    (h : input.length - position < rounds) :
    passWhile p rounds ⟨input, host⟩ ⟨position, depth⟩ =
      .ok ((), ⟨position + ((input.drop position).takeWhile p).length, depth⟩) := by
  induction rounds generalizing position with
  | zero => exact absurd h (Nat.not_lt_zero _)
  | succ rounds ih =>
    show (match input[position]? with | none => _ | some b => _ : Scanner Unit) _ _ = _
    rcases hb : input[position]? with _ | b
    · rw [List.drop_eq_nil_of_le (List.getElem?_eq_none_iff.mp hb)]
      rfl
    · have hlt : position < input.length := (List.getElem?_eq_some_iff.mp hb).1
      rw [drop_eq_cons hb, List.takeWhile_cons]
      show (if p b then _ else _ : Scanner Unit) _ _ = _
      split
      · rw [bind_apply, step_run hhost hb]
        dsimp only
        rw [ih (by omega), List.length_cons, Nat.add_right_comm, Nat.add_assoc]
      · rfl

/-- The bytes of a run, which end where it ends. -/
def taken (input : Bytes) (position : Nat) (p : UInt8 → Bool) : Bytes := (input.drop position).takeWhile p

theorem drop_taken (input : Bytes) (position : Nat) (p : UInt8 → Bool) :
    input.drop position =
      taken input position p ++ input.drop (position + (taken input position p).length) := by
  have hsplit : taken input position p ++ (input.drop position).dropWhile p = input.drop position :=
    List.takeWhile_append_dropWhile
  have hrest : (taken input position p ++ (input.drop position).dropWhile p).drop
      (taken input position p).length = (input.drop position).dropWhile p := List.drop_left
  rw [hsplit, List.drop_drop] at hrest
  rw [hrest, hsplit]

theorem taken_le (hposition : position ≤ input.length) :
    position + (taken input position p).length ≤ input.length := by
  have hlength : (taken input position p).length ≤ (input.drop position).length :=
    (List.takeWhile_prefix p).length_le
  rw [List.length_drop] at hlength
  omega

theorem cut_taken (hposition : position ≤ input.length) (place : Place) :
    cut position (position + (taken input position p).length) ⟨input, host⟩ place =
      .ok (taken input position p, place) := by
  have hcut : (input.drop position).take (position + (taken input position p).length - position) =
      taken input position p := by
    rw [Nat.add_sub_cancel_left, drop_taken input position p, List.take_left]
  rw [cut, if_pos ⟨Nat.le_add_right .., taken_le hposition⟩, hcut]

theorem run_run (hhost : host.Holds input) (hposition : position ≤ input.length) :
    run p ⟨input, host⟩ ⟨position, depth⟩ =
      .ok (taken input position p, ⟨position + (taken input position p).length, depth⟩) := by
  show (passWhile p (input.length + 1) >>= fun _ => Scanner.position >>= cut position) _ _ = _
  rw [bind_apply, passWhile_run hhost (by omega)]
  exact cut_taken hposition _

theorem someRun_run (hhost : host.Holds input) (hposition : position ≤ input.length) {reason : Reason} :
    someRun p reason ⟨input, host⟩ ⟨position, depth⟩ =
      if (taken input position p).isEmpty then .error (.fault position reason)
      else .ok (taken input position p, ⟨position + (taken input position p).length, depth⟩) := by
  show (passWhile p (input.length + 1) >>= fun _ => Scanner.position >>= fun finish =>
    if position = finish then stop reason else cut position finish) _ _ = _
  rw [bind_apply, passWhile_run hhost (by omega)]
  show (if position = position + (taken input position p).length then stop reason
    else cut position (position + (taken input position p).length) : Scanner Bytes) ⟨input, host⟩
      ⟨position + (taken input position p).length, depth⟩ = _
  by_cases htaken : (taken input position p).length = 0
  · rw [List.length_eq_zero_iff.mp htaken, List.length_nil, Nat.add_zero, if_pos rfl]
    rfl
  · rw [if_neg (by omega), if_neg (by rwa [List.isEmpty_iff_length_eq_zero])]
    exact cut_taken hposition _

theorem take_run {n : Nat} (hhost : host.hasAddress (position + n) = true) :
    take n ⟨input, host⟩ ⟨position, depth⟩ =
      if input.length < position + n then .error (.fault position .truncated)
      else .ok ((input.drop position).take n, ⟨position + n, depth⟩) := by
  have hsum : sum position n ⟨input, host⟩ ⟨position, depth⟩ = .ok (position + n, ⟨position, depth⟩) :=
    if_pos hhost
  rw [take, bind_apply]
  show (sum position n >>= _) ⟨input, host⟩ ⟨position, depth⟩ = _
  rw [bind_apply, hsum]
  show (if input.length < position + n then _ else _ : Scanner Bytes) _ _ = _
  split
  · rfl
  next hlength =>
    have hcut : cut position (position + n) ⟨input, host⟩ ⟨position, depth⟩ =
        .ok ((input.drop position).take n, ⟨position, depth⟩) := by
      rw [cut, if_pos ⟨Nat.le_add_right .., Nat.le_of_not_lt hlength⟩, Nat.add_sub_cancel_left]
    rw [bind_apply, hcut]
    rfl

theorem take_overflow {n : Nat} (hhost : host.hasAddress (position + n) = false) :
    take n ⟨input, host⟩ ⟨position, depth⟩ = .error (.abort .overflow) := by
  have hsum : sum position n ⟨input, host⟩ ⟨position, depth⟩ = .error (.abort .overflow) :=
    if_neg (by rw [hhost]; nofun)
  rw [take, bind_apply]
  show (sum position n >>= _) ⟨input, host⟩ ⟨position, depth⟩ = _
  rw [bind_apply, hsum]

end Scanner

end Mailroom
