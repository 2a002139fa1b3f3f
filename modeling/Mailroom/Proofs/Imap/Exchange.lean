import Mailroom.Imap.Connection

/-! The answer of a command, read off the frames.

While a command runs, a frame asks for its next part, tells something, concerns another command
or nobody, spoils the answer, or ends the exchange. `Passes` and `fault?` say which frames leave
the command running; `Concludes` says which frames make up an exchange that succeeds. That the
exchange succeeds on these and on no others is `execute_answers`, from what one frame does
(`Passes.step`, `spoiled_step`) by induction on the frames. -/
namespace Mailroom.Connection

/-! ### What frames mean -/

/-- What a frame tells on its own, if it does and makes sense. -/
def told? (frame : Bytes) : Option Untagged :=
  match Response.read frame with
  | .ok (.untagged data) => some data
  | _ => none

/-- What frames tell, in order. -/
def told (frames : List Bytes) : List Untagged := frames.filterMap told?

/-- Whether a frame asks for the next part of a command. -/
def asksOn (frame : Bytes) : Bool :=
  match Response.read frame with
  | .ok (.continuation _) => true
  | _ => false

/-- How many frames ask for the next part of a command. -/
def askings (frames : List Bytes) : Nat := frames.countP asksOn

theorem askings_cons (frame : Bytes) (frames : List Bytes) :
    askings (frame :: frames) = askings [frame] + askings frames := by
  show askings ([frame] ++ frames) = _
  exact List.countP_append

/-- A frame that leaves the command with the tag running, with nothing lost. -/
inductive Passes (tag : String) (frame : Bytes) : Prop
  | asking {text : String} (h : Response.read frame = .ok (.continuation text))
  | telling {data : Untagged} (h : Response.read frame = .ok (.untagged data))
  /-- The completion of another command. -/
  | foreign {other : String} {condition : Condition} {code : Option Code} {text : String}
    (h : Response.read frame = .ok (.tagged other condition code text)) (hother : other ≠ tag)
  /-- A line that makes no sense and is neither data nor a completion of the command. -/
  | noise {position : Nat} {reason : Reason} (h : Response.read frame = .error (.malformed position reason))
    (hfor : isFor tag frame = false) (hdata : isData frame = false)

/-- What is wrong with a frame of data, if it makes no sense. -/
def fault? (tag : String) (frame : Bytes) : Option Fault :=
  match Response.read frame with
  | .error (.malformed position reason) =>
    if !isFor tag frame && isData frame then some (.malformed position reason) else none
  | _ => none

/-- What is wrong with frames of data, in order. -/
def faults (tag : String) (frames : List Bytes) : List Fault := frames.filterMap (fault? tag)

/-- A frame that completes the command with the tag, which went well. -/
def Completes (tag : String) (frame : Bytes) (code : Option Code) : Prop :=
  ∃ condition text, Response.read frame = .ok (.tagged tag condition code text) ∧
    (condition = .ok ∨ condition = .preauth)

/-- How many parts of a command wait for the server to ask for them. -/
def waits (c : Connection) (command : Command) : Nat :=
  (command.request c.tags.current (c.has .literalPlus)).length - 1

/-- The frames of an exchange that succeeds: those before the completion, which ask for every
part that waits, the completion, and those that are left. -/
structure Concludes (c : Connection) (command : Command) (before : List Bytes) (last : Bytes)
    (code : Option Code) (rest : List Bytes) : Prop where
  received : c.incoming = before ++ last :: rest
  completes : Completes c.tags.current last code
  passes : ∀ frame ∈ before, Passes c.tags.current frame
  answered : askings before = c.waits command

/-! ### What one frame does -/

/-- An exchange that has gone on from another by some frames. -/
structure Exchange.After (tag : String) (frames : List Bytes) (x y : Exchange) : Prop where
  unsent : y.unsent = x.unsent.drop (askings frames)
  untagged : y.untagged.reverse = x.untagged.reverse ++ told frames
  malformed : y.malformed = x.malformed.or (faults tag frames).head?

namespace Exchange.After
variable {tag : String} {frame : Bytes} {frames : List Bytes} {x y z : Exchange}

theorem refl (tag : String) (x : Exchange) : After tag [] x x where
  unsent := rfl
  untagged := (List.append_nil _).symm
  malformed := by simp [faults]

theorem cons (h : After tag [frame] x y) (hrest : After tag frames y z) : After tag (frame :: frames) x z where
  unsent := by
    rw [hrest.unsent, h.unsent, List.drop_drop, ← askings_cons]
  untagged := by
    rw [hrest.untagged, h.untagged, List.append_assoc]
    congr 1
    show told [frame] ++ told frames = told ([frame] ++ frames)
    exact List.filterMap_append.symm
  malformed := by
    have hboth : faults tag ([frame] ++ frames) = faults tag [frame] ++ faults tag frames :=
      List.filterMap_append
    rw [hrest.malformed, h.malformed, Option.or_assoc, ← List.head?_append, ← hboth]
    rfl

end Exchange.After

section
variable {command : Command} {tag : String} {frame : Bytes} {frames : List Bytes} {x : Exchange}
  {c d : Connection} {answer : Answer}

theorem hear_malformed {fault : Fault} (h : fault? tag frame = some fault) :
    hear tag frame = .malformed fault := by
  unfold fault? at h
  unfold hear
  split at h
  · next position reason hread =>
    rw [hread]
    split at h
    · next hboth =>
      cases h
      rw [Bool.and_eq_true, Bool.not_eq_true'] at hboth
      simp [hboth.1, hboth.2]
    · cases h
  · cases h

/-- A frame that passes takes the exchange one step on, if there is a part to send when it asks
for one. -/
theorem Passes.step (h : Passes tag frame) (hpart : asksOn frame = true → x.unsent ≠ [])
    (command : Command) (c : Connection) :
    ∃ y d, Exchange.After tag [frame] x y ∧
      ∀ rest, converse command tag x c (frame :: rest) = converse command tag y d rest := by
  cases h with
  | @asking text h =>
    rcases hunsent : x.unsent with _ | ⟨part, unsent⟩
    · exact absurd hunsent (hpart (by simp [asksOn, h]))
    · refine ⟨{ x with unsent }, c.write part, ?_, ?_⟩
      · constructor <;> simp [askings, asksOn, told, told?, faults, fault?, h, hunsent]
      · intro rest
        simp [converse, hear, h, hunsent]
  | @telling data h =>
    refine ⟨x.note data, c.observe data, ?_, ?_⟩
    · constructor <;> simp [askings, asksOn, told, told?, faults, fault?, h, Exchange.note]
    · intro rest
      simp [converse, hear, h]
  | foreign h hother =>
    refine ⟨x, c, ?_, ?_⟩
    · constructor <;> simp [askings, asksOn, told, told?, faults, fault?, h]
    · intro rest
      simp [converse, hear, h, hother]
  | noise h hfor hdata =>
    refine ⟨x, c, ?_, ?_⟩
    · constructor <;> simp [askings, asksOn, told, told?, faults, fault?, h, hdata]
    · intro rest
      simp [converse, hear, h, hfor, hdata]

/-- Data that makes no sense is remembered, the first of it. -/
theorem spoiled_step {fault : Fault} (h : fault? tag frame = some fault) (command : Command) (x : Exchange)
    (c : Connection) :
    ∃ y d, Exchange.After tag [frame] x y ∧
      ∀ rest, converse command tag x c (frame :: rest) = converse command tag y d rest := by
  refine ⟨{ x with malformed := x.malformed.or (some fault) }, c, ?_, ?_⟩
  · have hread : ∃ position reason, Response.read frame = .error (.malformed position reason) := by
      unfold fault? at h
      split at h
      · next position reason hread => exact ⟨position, reason, hread⟩
      · cases h
    obtain ⟨position, reason, hread⟩ := hread
    constructor
    · simp [askings, asksOn, hread]
    · simp [told, told?, hread]
    · simp [faults, h]
  · intro rest
    simp [converse, hear_malformed h]

/-! ### What a whole exchange does -/

/-- Frames that do not end the exchange take it on, one by one. -/
theorem converse_through (hframes : ∀ f ∈ frames, Passes tag f ∨ ∃ fault, fault? tag f = some fault)
    (hparts : askings frames ≤ x.unsent.length) (command : Command) (c : Connection) :
    ∃ y d, Exchange.After tag frames x y ∧
      ∀ rest, converse command tag x c (frames ++ rest) = converse command tag y d rest := by
  induction frames generalizing x c with
  | nil => exact ⟨x, c, .refl tag x, fun rest => rfl⟩
  | cons frame frames ih =>
    have hcount := askings_cons frame frames
    have hstep : ∃ y d, Exchange.After tag [frame] x y ∧
        ∀ rest, converse command tag x c (frame :: rest) = converse command tag y d rest := by
      rcases hframes frame List.mem_cons_self with hpass | ⟨fault, hfault⟩
      · refine hpass.step (fun hasks hnil => ?_) command c
        have hone : askings [frame] = 1 := by simp [askings, hasks]
        rw [hnil, List.length_nil] at hparts
        omega
      · exact spoiled_step hfault command x c
    obtain ⟨y, d, hafter, hconverse⟩ := hstep
    have hleft : askings frames ≤ y.unsent.length := by
      rw [hafter.unsent, List.length_drop]
      omega
    obtain ⟨z, e, hafter', hconverse'⟩ :=
      ih (fun f hf => hframes f (List.mem_cons_of_mem frame hf)) hleft d
    exact ⟨z, e, hafter.cons hafter', fun rest => (hconverse _).trans (hconverse' rest)⟩

/-- What is left to go wrong once the server says that all went well. -/
theorem finish_well {condition : Condition} (hc : condition = .ok ∨ condition = .preauth) (x : Exchange)
    (code : Option Code) (text : String) :
    x.finish condition code text = match x.unsent, x.malformed with
      | _ :: _, _ => .error (.protocol .completedEarly)
      | [], some fault => .error (.fault fault)
      | [], none => .ok ⟨x.untagged.reverse, code⟩ := by
  unfold Exchange.finish
  rcases hc with rfl | rfl <;> rcases x.unsent with _ | _ <;> rcases x.malformed with _ | _ <;> rfl

/-- The end of an exchange that succeeds. -/
theorem finish_ok {condition : Condition} {code : Option Code} {text : String}
    (h : x.finish condition code text = .ok answer) :
    (condition = .ok ∨ condition = .preauth) ∧ x.unsent = [] ∧ x.malformed = none ∧
      answer = ⟨x.untagged.reverse, code⟩ := by
  have hc : condition = .ok ∨ condition = .preauth := by
    cases condition with
    | ok => exact .inl rfl
    | preauth => exact .inr rfl
    | no => cases h
    | bad => cases h
    | bye => cases h
  rw [finish_well hc] at h
  split at h
  · cases h
  · cases h
  · next hunsent hmalformed =>
    cases h
    exact ⟨hc, hunsent, hmalformed, rfl⟩

/-- A frame leaves the command running, or spoils its answer, or ends the exchange. -/
theorem hear_cases (tag : String) (frame : Bytes) :
    Passes tag frame ∨ (∃ fault, fault? tag frame = some fault) ∨
      (∃ condition code text, Response.read frame = .ok (.tagged tag condition code text)) ∨
      ∃ fault, hear tag frame = .broken fault := by
  rcases hread : Response.read frame with
    (⟨position, reason⟩ | ⟨cause⟩) | (⟨other, condition, code, text⟩ | data | text)
  · by_cases hfor : isFor tag frame = true
    · exact .inr (.inr (.inr ⟨.malformed position reason, by simp [hear, hread, hfor]⟩))
    · by_cases hdata : isData frame = true
      · exact .inr (.inl ⟨.malformed position reason, by simp [fault?, hread, hfor, hdata]⟩)
      · exact .inl (.noise hread (Bool.eq_false_iff.mpr hfor) (Bool.eq_false_iff.mpr hdata))
  · exact .inr (.inr (.inr ⟨.unreadable cause, by simp [hear, hread]⟩))
  · by_cases hother : other = tag
    · subst hother
      exact .inr (.inr (.inl ⟨condition, code, text, rfl⟩))
    · exact .inl (.foreign hread hother)
  · exact .inl (.telling hread)
  · exact .inl (.asking hread)

/-- Nobody asks for a part when there is none, or the exchange fails. -/
theorem converse_unasked (hasks : asksOn frame = true) (hunsent : x.unsent = []) (command : Command)
    (tag : String) (c : Connection) (rest : List Bytes) :
    ∃ d, converse command tag x c (frame :: rest) =
        (.error (.protocol (.unexpectedContinuation command.name)), d) ∧ d.incoming = rest := by
  refine ⟨{ c with incoming := rest }, ?_, rfl⟩
  unfold asksOn at hasks
  split at hasks
  · next text hread => simp [converse, hear, hread, hunsent]
  · cases hasks

/-- The completion ends the exchange. -/
theorem converse_completion {condition : Condition} {code : Option Code} {text : String}
    (hread : Response.read frame = .ok (.tagged tag condition code text)) (command : Command)
    (x : Exchange) (c : Connection) (rest : List Bytes) :
    ∃ d, converse command tag x c (frame :: rest) = (x.finish condition code text, d) ∧
      d.incoming = rest := by
  refine ⟨{ (if x.unsent.isEmpty then c.notice code else c) with incoming := rest }, ?_, rfl⟩
  simp [converse, hear, hread]

/-- In an exchange that succeeds, a part is asked for only when there is one. -/
theorem asked_of_ok (h : converse command tag x c (frame :: frames) = (.ok answer, d))
    (hasks : asksOn frame = true) : x.unsent ≠ [] := by
  intro hunsent
  obtain ⟨e, herror, -⟩ := converse_unasked hasks hunsent command tag c frames
  rw [h] at herror
  cases herror

theorem askings_le_unsent (h : converse command tag x c (frame :: frames) = (.ok answer, d)) :
    askings [frame] ≤ x.unsent.length := by
  by_cases hasks : asksOn frame = true
  · have hlength := List.length_pos_iff.mpr (asked_of_ok h hasks)
    have hone : askings [frame] = 1 := by simp [askings, hasks]
    omega
  · simp [askings, hasks]

/-- An exchange that succeeds is made of frames that pass, and of the completion. -/
theorem converse_ok (h : converse command tag x c frames = (.ok answer, d)) :
    ∃ before last, frames = before ++ last :: d.incoming ∧ Completes tag last answer.code ∧
      (∀ f ∈ before, Passes tag f) ∧ askings before = x.unsent.length ∧ x.malformed = none ∧
      answer.untagged = x.untagged.reverse ++ told before := by
  induction frames generalizing x c with
  | nil => cases h
  | cons frame frames ih =>
    rcases hear_cases tag frame with
      hpass | ⟨fault, hfault⟩ | ⟨condition, code, text, hread⟩ | ⟨fault, hbroken⟩
    · have hone := askings_le_unsent h
      obtain ⟨y, e, hafter, hconverse⟩ := hpass.step (asked_of_ok h) command c
      rw [hconverse] at h
      obtain ⟨before, last, hframes, hlast, hbefore, hasked, hnone, htold⟩ := ih h
      have hcount := askings_cons frame before
      rw [hafter.unsent, List.length_drop] at hasked
      rw [hafter.malformed, Option.or_eq_none_iff] at hnone
      refine ⟨frame :: before, last, by rw [hframes]; rfl, hlast, ?_, by omega, hnone.1, ?_⟩
      · intro f hf
        rcases List.mem_cons.mp hf with rfl | hf
        · exact hpass
        · exact hbefore f hf
      · rw [htold, hafter.untagged, List.append_assoc]
        congr 1
        exact List.filterMap_append.symm
    · obtain ⟨y, e, hafter, hconverse⟩ := spoiled_step hfault command x c
      rw [hconverse] at h
      obtain ⟨-, -, -, -, -, -, hnone, -⟩ := ih h
      rw [hafter.malformed, Option.or_eq_none_iff] at hnone
      simp [faults, hfault] at hnone
    · obtain ⟨e, hconverse, hrest⟩ := converse_completion hread command x c frames
      rw [hconverse, Prod.mk.injEq] at h
      obtain ⟨hfinish, rfl⟩ := h
      obtain ⟨hc, hunsent, hnone, rfl⟩ := finish_ok hfinish
      refine ⟨[], frame, by rw [hrest]; rfl, ⟨condition, text, hread, hc⟩, ?_, ?_, hnone, ?_⟩
      · exact fun f hf => absurd hf List.not_mem_nil
      · rw [hunsent]
        rfl
      · exact (List.append_nil _).symm
    · simp [converse, hbroken] at h

end

/-! ### A command and its answer -/

/-- The exchange that a command begins. -/
def opening (c : Connection) (command : Command) : Exchange where
  unsent := (command.request c.tags.current (c.has .literalPlus)).tail

theorem length_opening (c : Connection) (command : Command) :
    (c.opening command).unsent.length = c.waits command := List.length_tail

/-- Sending a command changes nothing that the client knows. -/
theorem execute_starts (c : Connection) (command : Command) :
    ∃ d : Connection, d.capabilities = c.capabilities ∧
      c.execute command = converse command c.tags.current (c.opening command) d c.incoming := by
  have hsame : ({ c with tags := c.tags.advance } : Connection).has .literalPlus = c.has .literalPlus := rfl
  simp only [execute, opening, hsame]
  rcases command.request c.tags.current (c.has .literalPlus) with _ | ⟨part, unsent⟩
  · exact ⟨{ c with tags := c.tags.advance }, rfl, rfl⟩
  · exact ⟨({ c with tags := c.tags.advance } : Connection).write part, rfl, rfl⟩

theorem execute_run (c : Connection) (command : Command) :
    ∃ d, c.execute command = converse command c.tags.current (c.opening command) d c.incoming :=
  let ⟨d, _, hrun⟩ := execute_starts c command
  ⟨d, hrun⟩

/-- The frames of an exchange that succeeds are those that pass, up to the completion. -/
theorem execute_ok {c d : Connection} {command : Command} {answer : Answer}
    (h : c.execute command = (.ok answer, d)) :
    ∃ before last, Concludes c command before last answer.code d.incoming ∧
      answer.untagged = told before := by
  obtain ⟨e, hrun⟩ := execute_run c command
  rw [hrun] at h
  obtain ⟨before, last, hframes, hlast, hbefore, hasked, -, htold⟩ := converse_ok h
  rw [length_opening] at hasked
  exact ⟨before, last, ⟨hframes, hlast, hbefore, hasked⟩, htold⟩

/-- What comes of a command whose completion says that all went well, and before which nothing
ended the exchange. -/
theorem execute_completed {c : Connection} {command : Command} {before rest : List Bytes} {last : Bytes}
    {code : Option Code} (hreceived : c.incoming = before ++ last :: rest)
    (hlast : Completes c.tags.current last code)
    (hbefore : ∀ f ∈ before, Passes c.tags.current f ∨ ∃ fault, fault? c.tags.current f = some fault)
    (hasked : askings before ≤ c.waits command) :
    (c.execute command).2.incoming = rest ∧
      (c.execute command).1 =
        if askings before < c.waits command then .error (.protocol .completedEarly)
        else match (faults c.tags.current before).head? with
          | some fault => .error (.fault fault)
          | none => .ok ⟨told before, code⟩ := by
  obtain ⟨condition, text, hread, hc⟩ := hlast
  obtain ⟨d, hrun⟩ := execute_run c command
  rw [← length_opening] at hasked ⊢
  obtain ⟨y, e, hafter, hconverse⟩ := converse_through hbefore hasked command d
  obtain ⟨e', hend, hrest⟩ := converse_completion hread command y e rest
  rw [hrun, hreceived, hconverse, hend]
  refine ⟨hrest, ?_⟩
  have huntagged : y.untagged.reverse = told before := hafter.untagged
  have hmalformed : y.malformed = (faults c.tags.current before).head? := hafter.malformed
  show y.finish condition code text = _
  rw [finish_well hc, huntagged, hmalformed]
  by_cases hearly : askings before < (c.opening command).unsent.length
  · rw [if_pos hearly]
    rcases hunsent : y.unsent with _ | ⟨part, unsent⟩
    · rw [hafter.unsent, List.drop_eq_nil_iff] at hunsent
      omega
    · rfl
  · rw [if_neg hearly]
    have hunsent : y.unsent = [] := by
      rw [hafter.unsent, List.drop_eq_nil_iff]
      omega
    rw [hunsent]
    rcases (faults c.tags.current before).head? with _ | fault <;> rfl

theorem faults_passes {tag : String} {frames : List Bytes} (h : ∀ f ∈ frames, Passes tag f) :
    faults tag frames = [] := by
  rw [faults, List.filterMap_eq_nil_iff]
  intro f hf
  cases h f hf with
  | asking hread => simp [fault?, hread]
  | telling hread => simp [fault?, hread]
  | foreign hread hother => simp [fault?, hread]
  | noise hread hfor hdata => simp [fault?, hread, hdata]

/-- A command succeeds exactly on the frames that make up an exchange that does, and its answer
is what these tell and the code of the completion. If data among them makes no sense, the
command fails with the first of it. It fails as well if it is completed before all of it was
asked for, whatever the data. -/
theorem execute_answers (c : Connection) (command : Command) :
    (∀ answer rest,
      ((c.execute command).1 = .ok answer ∧ (c.execute command).2.incoming = rest ↔
        ∃ before last code, Concludes c command before last code rest ∧ answer = ⟨told before, code⟩)) ∧
    ∀ before last code rest, c.incoming = before ++ last :: rest → Completes c.tags.current last code →
      (∀ f ∈ before, Passes c.tags.current f ∨ ∃ fault, fault? c.tags.current f = some fault) →
        (∀ fault, (faults c.tags.current before).head? = some fault → askings before = c.waits command →
          (c.execute command).1 = .error (.fault fault) ∧ (c.execute command).2.incoming = rest) ∧
        (askings before < c.waits command →
          (c.execute command).1 = .error (.protocol .completedEarly) ∧
            (c.execute command).2.incoming = rest) := by
  refine ⟨fun answer rest => ⟨?_, ?_⟩, ?_⟩
  · rintro ⟨hok, hrest⟩
    obtain ⟨before, last, hconcludes, htold⟩ := execute_ok (Prod.ext hok rfl)
    rw [hrest] at hconcludes
    exact ⟨before, last, answer.code, hconcludes, by rw [← htold]⟩
  · rintro ⟨before, last, code, h, rfl⟩
    obtain ⟨hrest, hresult⟩ := execute_completed h.received h.completes (fun f hf => .inl (h.passes f hf))
      (Nat.le_of_eq h.answered)
    rw [if_neg (by rw [h.answered]; exact Nat.lt_irrefl _), faults_passes h.passes] at hresult
    exact ⟨hresult, hrest⟩
  · intro before last code rest hreceived hlast hbefore
    constructor
    · intro fault hfault hasked
      obtain ⟨hrest, hresult⟩ := execute_completed hreceived hlast hbefore (Nat.le_of_eq hasked)
      rw [if_neg (by rw [hasked]; exact Nat.lt_irrefl _), hfault] at hresult
      exact ⟨hresult, hrest⟩
    · intro hearly
      obtain ⟨hrest, hresult⟩ := execute_completed hreceived hlast hbefore (Nat.le_of_lt hearly)
      rw [if_pos hearly] at hresult
      exact ⟨hresult, hrest⟩

/-- What one command reads among the frames of another. -/
theorem execute_answers_search :
    (execute ⟨[Octet.ofText "* SEARCH 2 5\r\n", Octet.ofText "B0001 OK other\r\n",
        Octet.ofText "A0001 OK done\r\n", Octet.ofText "* 1 EXISTS\r\n"], .closed, [], {}, []⟩
        (.search [.all])).1 = .ok ⟨[.search [2, 5]], none⟩ ∧
      (execute ⟨[Octet.ofText "* SEARCH 2 5\r\n", Octet.ofText "B0001 OK other\r\n",
        Octet.ofText "A0001 OK done\r\n", Octet.ofText "* 1 EXISTS\r\n"], .closed, [], {}, []⟩
        (.search [.all])).2.incoming = [Octet.ofText "* 1 EXISTS\r\n"] := by
  refine ((execute_answers _ _).1 _ _).mpr
    ⟨[Octet.ofText "* SEARCH 2 5\r\n", Octet.ofText "B0001 OK other\r\n"],
    Octet.ofText "A0001 OK done\r\n", none, ⟨rfl, ⟨.ok, "done", rfl, .inl rfl⟩, ?_, rfl⟩, rfl⟩
  intro f hf
  simp only [List.mem_cons, List.not_mem_nil, or_false] at hf
  rcases hf with rfl | rfl
  · have hread : Response.read (Octet.ofText "* SEARCH 2 5\r\n") =
        .ok (.untagged (.search [2, 5])) := rfl
    exact .telling hread
  · have hread : Response.read (Octet.ofText "B0001 OK other\r\n") =
        .ok (.tagged "B0001" .ok none "other") := rfl
    exact .foreign hread (by decide)

/-- Data that makes no sense is not what fails a command that is completed too early. -/
theorem malformed_data_of_early_completion :
    ¬ ∀ (c : Connection) (command : Command) (before : List Bytes) (last : Bytes) (code : Option Code)
      (rest : List Bytes) (fault : Fault), c.incoming = before ++ last :: rest →
      Completes c.tags.current last code →
      (∀ f ∈ before, Passes c.tags.current f ∨ ∃ fault, fault? c.tags.current f = some fault) →
      (faults c.tags.current before).head? = some fault → (c.execute command).1 = .error (.fault fault) := by
  intro h
  let c : Connection :=
    ⟨[Octet.ofText "* SEARCH x\r\n", Octet.ofText "A0001 OK done\r\n"], .closed, [], {}, []⟩
  have htag : c.tags.current = "A0001" := by decide +kernel
  have hreceived : c.incoming =
      [Octet.ofText "* SEARCH x\r\n"] ++ Octet.ofText "A0001 OK done\r\n" :: [] := rfl
  have hlast : Completes c.tags.current (Octet.ofText "A0001 OK done\r\n") none := by
    rw [htag]
    exact ⟨.ok, "done", by rfl, .inl rfl⟩
  have hfault : fault? c.tags.current (Octet.ofText "* SEARCH x\r\n") =
      some (.malformed 0 (.badSearchResult "x")) := by decide +kernel
  have hbefore : ∀ f ∈ [Octet.ofText "* SEARCH x\r\n"],
      Passes c.tags.current f ∨ ∃ fault, fault? c.tags.current f = some fault := by
    intro f hf
    rw [List.mem_singleton] at hf
    subst hf
    exact .inr ⟨_, hfault⟩
  have hfirst : (faults c.tags.current [Octet.ofText "* SEARCH x\r\n"]).head? =
      some (.malformed 0 (.badSearchResult "x")) := by
    rw [faults, List.filterMap_cons, hfault]
    rfl
  have hearly : askings [Octet.ofText "* SEARCH x\r\n"] < c.waits (.login "a" "pä") := by decide +kernel
  have hclaimed := h c (.login "a" "pä") _ _ none [] _ hreceived hlast hbefore hfirst
  obtain ⟨-, hresult⟩ := execute_completed hreceived hlast hbefore (Nat.le_of_lt hearly)
  rw [if_pos hearly, hclaimed] at hresult
  cases hresult

end Mailroom.Connection
