import Mailroom.Proofs.Imap.Exchange

/-! What a command that failed leaves unread.

A command that fails is `Settled` if it has been read up to its completion: what the server told in
answer to it is then behind the connection, and no later command counts it. Reading stops sooner
where the input ends, at a line that cannot be read at all, and when the server asks for a part of
the command that there is not. `execute_error_settled_iff` says that nothing else stops it, and that
later commands answer with what comes after. -/
namespace Mailroom.Connection

/-! ### Lines that end a command -/

/-- A line that completes the command with the tag. It may make no sense but for the tag. -/
inductive Closes (tag : String) (frame : Bytes) : Prop
  | completion {condition : Condition} {code : Option Code} {text : String}
    (h : Response.read frame = .ok (.tagged tag condition code text))
  | malformed {position : Nat} {reason : Reason}
    (h : Response.read frame = .error (.malformed position reason)) (hfor : isFor tag frame = true)

/-- A frame that leaves the command with the tag running. -/
def GoesOn (tag : String) (frame : Bytes) : Prop :=
  Passes tag frame ∨ ∃ fault, fault? tag frame = some fault

/-- What the completion of a command can fail it with. -/
inductive Verdict : ImapError → Prop
  | no (text : String) : Verdict (.no text)
  | bad (text : String) : Verdict (.bad text)
  | bye (text : String) : Verdict (.bye text)
  | early : Verdict (.protocol .completedEarly)
  | malformed (position : Nat) (reason : Reason) : Verdict (.fault (.malformed position reason))

/-- What the end of the input can fail a command with. -/
inductive Loss : ImapError → Prop
  | transport (cause : TransportError) : Loss (.io cause)
  | literal (length : Nat) : Loss (.protocol (.literalTooLong length))
  | line : Loss (.protocol .lineTooLong)
  /-- The server said farewell before. -/
  | farewell (text : String) : Loss (.bye text)

/-- The frame on which a command fails, and the error. -/
inductive Stops (command : Command) (tag : String) (last : Bytes) : ImapError → Prop
  | closed {e : ImapError} (h : Closes tag last) (hverdict : Verdict e) : Stops command tag last e
  | asked (h : asksOn last = true) :
    Stops command tag last (.protocol (.unexpectedContinuation command.name))
  | unreadable {cause : Unreadable} (h : Response.read last = .error (.unreadable cause)) :
    Stops command tag last (.fault (.unreadable cause))

/-- How a command fails on frames, with an error and frames that stay unread: none of the frames
ends it, or the first that does. -/
inductive Fails (command : Command) (tag : String) (frames : List Bytes) (e : ImapError)
    (unread : List Bytes) : Prop
  | lost (hunread : unread = []) (hframes : ∀ f ∈ frames, GoesOn tag f) (hloss : Loss e)
  | stopped {before : List Bytes} {last : Bytes} (hframes : frames = before ++ last :: unread)
    (hbefore : ∀ f ∈ before, GoesOn tag f) (hstops : Stops command tag last e)

section
variable {command : Command} {tag : String} {frame : Bytes} {frames : List Bytes} {x y : Exchange}
  {c d : Connection} {e : ImapError}

theorem fault?_malformed {fault : Fault} (h : fault? tag frame = some fault) :
    ∃ position reason, fault = .malformed position reason ∧
      Response.read frame = .error (.malformed position reason) ∧ isFor tag frame = false := by
  unfold fault? at h
  split at h
  · next position reason hread =>
    split at h
    · next hboth =>
      cases h
      rw [Bool.and_eq_true, Bool.not_eq_true'] at hboth
      exact ⟨position, reason, rfl, hread, hboth.1⟩
    · cases h
  · cases h

/-- A command that goes on is not completed. -/
theorem GoesOn.not_closes (h : GoesOn tag frame) : ¬ Closes tag frame := by
  intro hcloses
  rcases h with hpass | ⟨fault, hfault⟩
  · cases hpass <;> cases hcloses <;> simp_all
  · obtain ⟨position, reason, -, hread, hfor⟩ := fault?_malformed hfault
    cases hcloses <;> simp_all

/-- A request for a part completes nothing. -/
theorem asksOn_not_closes (h : asksOn frame = true) : ¬ Closes tag frame := by
  unfold asksOn at h
  split at h
  · rintro (hclosing | ⟨hclosing, -⟩) <;> simp_all
  · cases h

theorem cutOff_loss (x : Exchange) (ending : FrameError) : Loss (x.cutOff ending) := by
  unfold Exchange.cutOff
  cases ending with
  | literalTooLong length => exact .literal length
  | lineTooLong => exact .line
  | closed =>
    rcases x.farewell with _ | text
    · exact .transport .closed
    · exact .farewell text

/-! ### Exchanges that fail -/

/-- What an exchange remembers as wrong is data that makes no sense. -/
def Exchange.Sound (x : Exchange) : Prop :=
  ∀ fault, x.malformed = some fault → ∃ position reason, fault = .malformed position reason

theorem Exchange.After.sound (h : Exchange.After tag frames x y) (hx : x.Sound) : y.Sound := by
  intro fault hfault
  rw [h.malformed, Option.or_eq_some_iff] at hfault
  rcases hfault with hbefore | ⟨-, hnow⟩
  · exact hx fault hbefore
  · obtain ⟨frame, -, hfault⟩ := List.mem_filterMap.mp (List.mem_of_head? hnow)
    obtain ⟨position, reason, rfl, -⟩ := fault?_malformed hfault
    exact ⟨position, reason, rfl⟩

theorem finish_error {condition : Condition} {code : Option Code} {text : String} (hx : x.Sound)
    (h : x.finish condition code text = .error e) : Verdict e := by
  cases condition with
  | no => cases h; exact .no text
  | bad => cases h; exact .bad text
  | bye => cases h; exact .bye text
  | ok | preauth =>
    rw [finish_well (by simp)] at h
    split at h
    · cases h
      exact .early
    · next fault _ hfault =>
      cases h
      obtain ⟨position, reason, rfl⟩ := hx fault hfault
      exact .malformed position reason
    · cases h

/-- A line that breaks a command off is its completion, or cannot be read. -/
theorem broken_stops {fault : Fault} (h : hear tag frame = .broken fault) (command : Command) :
    Stops command tag frame (.fault fault) := by
  unfold hear at h
  split at h
  · split at h <;> cases h
  · cases h
  · next hread =>
    cases h
    exact .unreadable hread
  · next fault' hunreadable hread =>
    obtain ⟨position, reason⟩ | ⟨cause⟩ := fault'
    · split at h
      · next hfor =>
        cases h
        exact .closed (.malformed hread hfor) (.malformed ..)
      · split at h <;> cases h
    · exact absurd rfl (hunreadable cause)

theorem Fails.here (h : Stops command tag frame e) (rest : List Bytes) :
    Fails command tag (frame :: rest) e rest :=
  .stopped rfl (fun _ hf => absurd hf List.not_mem_nil) h

theorem Fails.cons {unread : List Bytes} (hframe : GoesOn tag frame)
    (h : Fails command tag frames e unread) : Fails command tag (frame :: frames) e unread := by
  cases h with
  | lost hunread hframes hloss => exact .lost hunread (List.forall_mem_cons.mpr ⟨hframe, hframes⟩) hloss
  | stopped hframes hbefore hstops =>
    exact .stopped (by rw [hframes]; rfl) (List.forall_mem_cons.mpr ⟨hframe, hbefore⟩) hstops

/-- An exchange that fails has read all frames, none of which ended it, or those up to the first
that did. -/
theorem converse_error (hx : x.Sound) (h : converse command tag x c frames = (.error e, d)) :
    Fails command tag frames e d.incoming := by
  induction frames generalizing x c with
  | nil =>
    cases h
    exact .lost rfl (fun _ hf => absurd hf List.not_mem_nil) (cutOff_loss x c.ending)
  | cons frame frames ih =>
    rcases hear_cases tag frame with
      hpass | ⟨fault, hfault⟩ | ⟨condition, code, text, hread⟩ | ⟨fault, hbroken⟩
    · by_cases hasks : asksOn frame = true ∧ x.unsent = []
      · obtain ⟨d', hconverse, rfl⟩ := converse_unasked hasks.1 hasks.2 command tag c frames
        rw [hconverse] at h
        cases h
        exact .here (.asked hasks.1) _
      · obtain ⟨y, c', hafter, hconverse⟩ := hpass.step (fun h hnil => hasks ⟨h, hnil⟩) command c
        rw [hconverse] at h
        exact (ih (hafter.sound hx) h).cons (.inl hpass)
    · obtain ⟨y, c', hafter, hconverse⟩ := spoiled_step hfault command x c
      rw [hconverse] at h
      exact (ih (hafter.sound hx) h).cons (.inr ⟨fault, hfault⟩)
    · obtain ⟨d', hconverse, rfl⟩ := converse_completion hread command x c frames
      rw [hconverse, Prod.mk.injEq] at h
      obtain ⟨hfinish, rfl⟩ := h
      exact .here (.closed (.completion hread) (finish_error hx hfinish)) _
    · have hconverse : converse command tag x c (frame :: frames) =
          (.error (.fault fault), { c with incoming := frames }) := by
        simp [converse, hbroken]
      rw [hconverse] at h
      cases h
      exact .here (broken_stops hbroken command) _

end

/-! ### Commands that fail -/

/-- What a command that fails has read. -/
theorem execute_error {c d : Connection} {command : Command} {e : ImapError}
    (h : c.execute command = (.error e, d)) :
    Fails command c.tags.current c.incoming e d.incoming := by
  obtain ⟨d', hrun⟩ := execute_run c command
  rw [hrun] at h
  refine converse_error (fun fault hfault => ?_) h
  cases hfault

/-- Whatever comes of a command, it reads on from where the connection stood. -/
theorem execute_reads (c : Connection) (command : Command) :
    ∃ skipped, c.incoming = skipped ++ (c.execute command).2.incoming := by
  rcases h : c.execute command with ⟨e | answer, d⟩
  · cases execute_error h with
    | lost hunread => exact ⟨c.incoming, by rw [hunread, List.append_nil]⟩
    | @stopped before last hframes =>
      exact ⟨before ++ [last], by rw [hframes, List.append_assoc]; rfl⟩
  · obtain ⟨before, last, hconcludes, -⟩ := execute_ok h
    exact ⟨before ++ [last], by rw [hconcludes.received, List.append_assoc]; rfl⟩

/-- The connection after several commands, whatever comes of them. -/
def executeAll (c : Connection) (commands : List Command) : Connection :=
  commands.foldl (fun c command => (c.execute command).2) c

theorem executeAll_reads (c : Connection) (commands : List Command) :
    ∃ skipped, c.incoming = skipped ++ (c.executeAll commands).incoming := by
  induction commands generalizing c with
  | nil => exact ⟨[], rfl⟩
  | cons command rest ih =>
    obtain ⟨skipped, hskipped⟩ := execute_reads c command
    obtain ⟨skipped', hskipped'⟩ := ih (c.execute command).2
    exact ⟨skipped ++ skipped', by rw [hskipped, hskipped', List.append_assoc]; rfl⟩

/-- The unread frames begin right after the line that completed the command. -/
def Settled (c : Connection) (unread : List Bytes) : Prop :=
  ∃ before last, c.incoming = before ++ last :: unread ∧
    (∀ f ∈ before, ¬ Closes c.tags.current f) ∧ Closes c.tags.current last

/-- An error that reports the end of the input: of the stream, of what can be cut into frames, or,
if no line completed the command, a farewell. -/
def ReportsEnd (c : Connection) : ImapError → Prop
  | .io _ => True
  | .protocol (.literalTooLong _) => True
  | .protocol .lineTooLong => True
  | .bye _ => ∀ f ∈ c.incoming, ¬ Closes c.tags.current f
  | _ => False

theorem Settled.unread {c : Connection} {before unread : List Bytes} {last : Bytes}
    (h : Settled c unread) (hreceived : c.incoming = before ++ last :: unread) :
    Closes c.tags.current last := by
  obtain ⟨before', last', hreceived', -, hcloses⟩ := h
  have hsame : (before' ++ [last']) ++ unread = (before ++ [last]) ++ unread := by
    rw [List.append_assoc, List.append_assoc]
    exact hreceived'.symm.trans hreceived
  have hlast := (List.append_inj' (List.append_cancel_right hsame) rfl).2
  cases hlast
  exact hcloses

/-- A command that fails, but not for the end of the input, has been read up to its completion, and
no further, unless a line cannot be read or the server asks for a part that there is not. Then
reading stops there, before the completion. Later commands answer with what is unread after. -/
theorem execute_error_settled_iff (c d : Connection) (command : Command) (e : ImapError)
    (h : c.execute command = (.error e, d)) (hend : ¬ ReportsEnd c e) :
    (Settled c d.incoming ↔
      e ≠ .protocol (.unexpectedContinuation command.name) ∧ ∀ cause, e ≠ .fault (.unreadable cause)) ∧
    (e = .protocol (.unexpectedContinuation command.name) →
      ∃ before last, c.incoming = before ++ last :: d.incoming ∧ asksOn last = true ∧
        ∀ f ∈ before ++ [last], ¬ Closes c.tags.current f) ∧
    ∀ commands next answer later, (d.executeAll commands).execute next = (.ok answer, later) →
      ∃ skipped before last, d.incoming = skipped ++ before ++ last :: later.incoming ∧
        answer.untagged = told before := by
  cases execute_error h with
  | lost _ hframes hloss =>
    refine absurd ?_ hend
    cases hloss with
    | transport => trivial
    | literal => trivial
    | line => trivial
    | farewell => exact fun f hf => (hframes f hf).not_closes
  | @stopped before last hreceived hbefore hstops =>
    refine ⟨?_, ?_, ?_⟩
    · constructor
      · intro hsettled
        have hcloses := hsettled.unread hreceived
        cases hstops with
        | closed _ hverdict => cases hverdict <;> simp
        | asked hasks => exact absurd hcloses (asksOn_not_closes hasks)
        | unreadable hread =>
          cases hcloses with
          | completion h => rw [hread] at h; cases h
          | malformed h => rw [hread] at h; cases h
      · rintro ⟨hasked, hread⟩
        cases hstops with
        | closed hcloses => exact ⟨before, last, hreceived, fun f hf => (hbefore f hf).not_closes, hcloses⟩
        | asked => exact absurd rfl hasked
        | unreadable => exact absurd rfl (hread _)
    · rintro rfl
      cases hstops with
      | closed _ hverdict => cases hverdict
      | asked hasks =>
        refine ⟨before, last, hreceived, hasks, fun f hf => ?_⟩
        rcases List.mem_append.mp hf with hf | hf
        · exact (hbefore f hf).not_closes
        · cases List.mem_singleton.mp hf
          exact asksOn_not_closes hasks
    · intro commands next answer later hnext
      obtain ⟨skipped, hskipped⟩ := executeAll_reads d commands
      obtain ⟨before, last, hconcludes, htold⟩ := execute_ok hnext
      exact ⟨skipped, before, last, by rw [hskipped, hconcludes.received, List.append_assoc], htold⟩

/-- A server that asks a search to go on, and then answers it. -/
def asking : Connection :=
  ⟨[Octet.ofText "+ go on\r\n", Octet.ofText "* SEARCH 9\r\n", Octet.ofText "A0001 OK done\r\n",
    Octet.ofText "* SEARCH 1\r\n", Octet.ofText "A0002 OK done\r\n"], .closed, [], {}, []⟩

/-- The next search answers with what both found. -/
theorem execute_error_settled_asking :
    ∃ d, asking.execute (.search [.unseen]) = (.error (.protocol (.unexpectedContinuation "UID SEARCH")), d) ∧
      ¬ Settled asking d.incoming ∧
      (d.execute (.search [.all])).1 = .ok ⟨[.search [9], .search [1]], none⟩ := by
  refine ⟨_, rfl, fun hsettled => ?_, rfl⟩
  exact ((execute_error_settled_iff asking _ (.search [.unseen]) _ rfl id).1.mp hsettled).1 rfl

end Mailroom.Connection
