import Mailroom.Proofs.Imap.Aftermath

/-! What a client knows of what the server can do.

A line that is read while a command runs may report capabilities, and the client keeps what it notices:
`execute_capabilities` says that this is the last of what was reported, one command after the other. But
it does not notice what a farewell reports, nor what the completion of a command reports that comes before
the server has asked for all of the command. `capabilities_last_reported_iff` says that nothing else is
overlooked, and when this makes a difference. -/
namespace Mailroom.Connection

/-! ### Lines that report capabilities -/

/-- A line that is read while the command with the tag runs. -/
structure Line where
  tag : String
  frame : Bytes
  /-- Whether the server has asked for every part of the command before. -/
  asked : Bool

namespace Line

/-- The capabilities that the line reports: data about them, or the code of a condition that the server
tells or that completes the command. -/
def reported? (l : Line) : Option (List Capability) :=
  match Response.read l.frame with
  | .ok (.untagged (.capability capabilities)) => some capabilities
  | .ok (.untagged (.condition _ (some (.capability capabilities)) _)) => some capabilities
  | .ok (.tagged tag _ (some (.capability capabilities)) _) => if tag = l.tag then some capabilities else none
  | _ => none

/-- Whether the client does not look at what the line reports: a farewell, or the completion of a
command for a part of which the server has not asked. -/
def isOverlooked (l : Line) : Bool :=
  match Response.read l.frame with
  | .ok (.untagged (.condition .bye _ _)) => true
  | .ok (.tagged ..) => !l.asked
  | _ => false

/-- The capabilities that the client takes from the line. -/
def noticed? (l : Line) : Option (List Capability) := if l.isOverlooked then none else l.reported?

end Line

/-- The lines that frames are while the command with the tag runs, so many parts of which wait. -/
def linesOf (tag : String) : Nat → List Bytes → List Line
  | _, [] => []
  | parts, frame :: rest => ⟨tag, frame, parts = 0⟩ :: linesOf tag (parts - askings [frame]) rest

/-- The frames that are read for a command. -/
def heard (c : Connection) (command : Command) : List Bytes :=
  c.incoming.take (c.incoming.length - (c.execute command).2.incoming.length)

/-- The lines that are read while several commands run, one after the other. -/
def lines (c : Connection) : List Command → List Line
  | [] => []
  | command :: rest =>
    linesOf c.tags.current (c.waits command) (c.heard command) ++ lines (c.execute command).2 rest

/-- The capabilities that a greeting reports, which are none if it does not say. -/
def greeted (greeting : Bytes) : List Capability := ((Line.mk "" greeting true).reported?).getD []

/-! ### What is noticed -/

section
variable {command : Command} {tag : String} {frame : Bytes} {frames rest : List Bytes} {x y : Exchange}
  {c d : Connection} {asked : Bool}

theorem map_linesOf (tag : String) (parts : Nat) (frames : List Bytes) :
    (linesOf tag parts frames).map Line.frame = frames := by
  induction frames generalizing parts with
  | nil => rfl
  | cons frame frames ih => rw [linesOf, List.map_cons, ih]

theorem heard_append (c : Connection) (command : Command) :
    c.incoming = c.heard command ++ (c.execute command).2.incoming := by
  obtain ⟨skipped, hskipped⟩ := execute_reads c command
  have hlength : c.incoming.length - (c.execute command).2.incoming.length = skipped.length := by
    have := congrArg List.length hskipped
    rw [List.length_append] at this
    omega
  have hheard : c.heard command = skipped := by
    rw [heard, hlength, hskipped, List.take_left]
  rw [hheard]
  exact hskipped

/-- What the server tells is noticed. -/
theorem observe_capabilities {data : Untagged} (h : Response.read frame = .ok (.untagged data))
    (c : Connection) :
    (c.observe data).capabilities = ((Line.mk tag frame asked).noticed?).getD c.capabilities := by
  unfold Line.noticed? Line.isOverlooked Line.reported?
  rw [h]
  rcases data with
    ⟨_ | _ | _ | _ | _, _ | ⟨_ | _ | _ | _ | _ | _ | _⟩, text⟩ | _ | _ | _ | _ | _ | _ | _ | _ <;> rfl

/-- So is the code of the completion, if nothing of the command waits. -/
theorem notice_capabilities {condition : Condition} {code : Option Code} {text : String}
    (h : Response.read frame = .ok (.tagged tag condition code text)) (c : Connection) :
    (if asked then c.notice code else c).capabilities =
      ((Line.mk tag frame asked).noticed?).getD c.capabilities := by
  unfold Line.noticed? Line.isOverlooked Line.reported?
  rw [h]
  rcases asked with _ | _ <;> rcases code with _ | ⟨_ | _ | _ | _ | _ | _ | _⟩ <;> simp [notice]

/-- A line that is neither data nor the completion reports nothing. -/
theorem noticed?_eq_none (h : ∀ data, Response.read frame ≠ .ok (.untagged data))
    (h' : ∀ condition code text, Response.read frame ≠ .ok (.tagged tag condition code text)) :
    (Line.mk tag frame asked).noticed? = none := by
  have hnone : (Line.mk tag frame asked).reported? = none := by
    unfold Line.reported?
    split
    · next h'' => exact absurd h'' (h _)
    · next h'' => exact absurd h'' (h _)
    · next h'' =>
      split
      · next hsame =>
        cases hsame
        exact absurd h'' (h' _ _ _)
      · rfl
    · rfl
  rw [Line.noticed?, hnone, ite_self]

theorem getLastD_filterMap_cons {α β : Type} (f : α → Option β) (a : α) (as : List α) (b : β) :
    ((a :: as).filterMap f).getLastD b = (as.filterMap f).getLastD ((f a).getD b) := by
  rcases h : f a with _ | last
  · rw [List.filterMap_cons_none h]
    rfl
  · rw [List.filterMap_cons_some h, List.getLastD_cons]
    rfl

theorem getLastD_filterMap_append {α β : Type} (f : α → Option β) (as as' : List α) (b : β) :
    ((as ++ as').filterMap f).getLastD b = (as'.filterMap f).getLastD ((as.filterMap f).getLastD b) := by
  induction as generalizing b with
  | nil => rfl
  | cons a as ih => rw [List.cons_append, getLastD_filterMap_cons, ih, getLastD_filterMap_cons]

/-- The frames that an exchange reads, and from which the client takes what it notices. -/
structure Notices (command : Command) (tag : String) (x : Exchange) (c : Connection)
    (frames heard : List Bytes) : Prop where
  received : frames = heard ++ (converse command tag x c frames).2.incoming
  capabilities : (converse command tag x c frames).2.capabilities =
    ((linesOf tag x.unsent.length heard).filterMap Line.noticed?).getLastD c.capabilities

/-- A frame that ends the exchange is the last. -/
theorem Notices.last {result : Except ImapError Answer}
    (hend : converse command tag x c (frame :: rest) = (result, { d with incoming := rest }))
    (hnoticed : d.capabilities = ((Line.mk tag frame (x.unsent.length = 0)).noticed?).getD c.capabilities) :
    Notices command tag x c (frame :: rest) [frame] where
  received := by
    rw [hend]
    rfl
  capabilities := by
    rw [hend, linesOf, getLastD_filterMap_cons]
    exact hnoticed

/-- A frame that leaves the exchange running is followed by others. -/
theorem Notices.cons {later : List Bytes}
    (hstep : converse command tag x c (frame :: rest) = converse command tag y d rest)
    (hunsent : y.unsent.length = x.unsent.length - askings [frame])
    (hnoticed : d.capabilities = ((Line.mk tag frame (x.unsent.length = 0)).noticed?).getD c.capabilities)
    (h : Notices command tag y d rest later) : Notices command tag x c (frame :: rest) (frame :: later) where
  received := by
    rw [hstep, List.cons_append, ← h.received]
  capabilities := by
    rw [hstep, h.capabilities, hunsent, hnoticed, linesOf, getLastD_filterMap_cons]

theorem converse_notices (command : Command) (tag : String) (x : Exchange) (c : Connection)
    (frames : List Bytes) : ∃ later, Notices command tag x c frames later := by
  induction frames generalizing x c with
  | nil => exact ⟨[], rfl, rfl⟩
  | cons frame rest ih =>
    -- A frame that reports nothing leaves what the client knows as it is.
    have hquiet : ∀ (d : Connection), d.capabilities = c.capabilities →
        (∀ data, Response.read frame ≠ .ok (.untagged data)) →
        (∀ condition code text, Response.read frame ≠ .ok (.tagged tag condition code text)) →
        d.capabilities = ((Line.mk tag frame (x.unsent.length = 0)).noticed?).getD c.capabilities := by
      intro d hd hdata hcompletion
      rw [noticed?_eq_none hdata hcompletion]
      exact hd
    rcases hear_cases tag frame with
      hpass | ⟨fault, hfault⟩ | ⟨condition, code, text, hread⟩ | ⟨fault, hbroken⟩
    · cases hpass with
      | asking h =>
        rcases hunsent : x.unsent with _ | ⟨part, unsent⟩
        · have hend : converse command tag x c (frame :: rest) =
              (.error (.protocol (.unexpectedContinuation command.name)), { c with incoming := rest }) := by
            simp [converse, hear, h, hunsent]
          exact ⟨[frame], .last hend (hquiet c rfl (by simp [h]) (by simp [h]))⟩
        · have hstep : converse command tag x c (frame :: rest) =
              converse command tag { x with unsent } (c.write part) rest := by simp [converse, hear, h, hunsent]
          obtain ⟨later, hlater⟩ := ih { x with unsent } (c.write part)
          have hknown := hquiet (c.write part) rfl (by simp [h]) (by simp [h])
          refine ⟨frame :: later, .cons hstep ?_ hknown hlater⟩
          simp [askings, asksOn, h, hunsent]
      | @telling data h =>
        have hstep : converse command tag x c (frame :: rest) =
            converse command tag (x.note data) (c.observe data) rest := by simp [converse, hear, h]
        obtain ⟨later, hlater⟩ := ih (x.note data) (c.observe data)
        refine ⟨frame :: later, .cons hstep ?_ (observe_capabilities h c) hlater⟩
        simp [askings, asksOn, h, Exchange.note]
      | @foreign other _ _ _ h hother =>
        have hstep : converse command tag x c (frame :: rest) = converse command tag x c rest := by
          simp [converse, hear, h, hother]
        obtain ⟨later, hlater⟩ := ih x c
        refine ⟨frame :: later, .cons hstep ?_ (hquiet c rfl (by simp [h]) ?_) hlater⟩
        · simp [askings, asksOn, h]
        · intro _ _ _ hsame
          rw [h] at hsame
          cases hsame
          exact hother rfl
      | noise h hfor hdata =>
        have hstep : converse command tag x c (frame :: rest) = converse command tag x c rest := by
          simp [converse, hear, h, hfor, hdata]
        obtain ⟨later, hlater⟩ := ih x c
        refine ⟨frame :: later, .cons hstep ?_ (hquiet c rfl (by simp [h]) (by simp [h])) hlater⟩
        simp [askings, asksOn, h]
    · obtain ⟨position, reason, -, h, -⟩ := fault?_malformed hfault
      have hstep : converse command tag x c (frame :: rest) =
          converse command tag { x with malformed := x.malformed.or (some fault) } c rest := by
        simp [converse, hear_malformed hfault]
      obtain ⟨later, hlater⟩ := ih { x with malformed := x.malformed.or (some fault) } c
      refine ⟨frame :: later, .cons hstep ?_ (hquiet c rfl (by simp [h]) (by simp [h])) hlater⟩
      simp [askings, asksOn, h]
    · have hend : converse command tag x c (frame :: rest) = (x.finish condition code text,
          { (if x.unsent.isEmpty then c.notice code else c) with incoming := rest }) := by
        simp [converse, hear, hread]
      refine ⟨[frame], .last hend ?_⟩
      rw [← notice_capabilities hread c]
      cases x.unsent <;> rfl
    · have hend : converse command tag x c (frame :: rest) =
          (.error (.fault fault), { c with incoming := rest }) := by
        simp [converse, hbroken]
      exact ⟨[frame], .last hend (hquiet c rfl (fun data h => by simp [hear, h] at hbroken)
        (fun condition code text h => by simp [hear, h] at hbroken))⟩

end

/-! ### What is known after some commands -/

theorem execute_capabilities (c : Connection) (command : Command) :
    (c.execute command).2.capabilities =
      ((linesOf c.tags.current (c.waits command) (c.heard command)).filterMap Line.noticed?).getLastD
        c.capabilities := by
  obtain ⟨d, hknown, hrun⟩ := execute_starts c command
  obtain ⟨later, hreceived, hcapabilities⟩ :=
    converse_notices command c.tags.current (c.opening command) d c.incoming
  rw [← hrun] at hreceived hcapabilities
  have hheard : c.heard command = later :=
    List.append_cancel_right ((heard_append c command).symm.trans hreceived)
  rw [hcapabilities, hheard, length_opening, hknown]

theorem executeAll_capabilities (c : Connection) (commands : List Command) :
    (c.executeAll commands).capabilities =
      ((c.lines commands).filterMap Line.noticed?).getLastD c.capabilities := by
  induction commands generalizing c with
  | nil => rfl
  | cons command rest ih =>
    rw [lines, getLastD_filterMap_append, ← execute_capabilities]
    exact ih (c.execute command).2

theorem incoming_lines (c : Connection) (commands : List Command) :
    c.incoming = (c.lines commands).map Line.frame ++ (c.executeAll commands).incoming := by
  induction commands generalizing c with
  | nil => rfl
  | cons command rest ih =>
    rw [lines, List.map_append, map_linesOf, List.append_assoc, heard_append c command]
    exact congrArg _ (ih (c.execute command).2)

theorem greet_capabilities {incoming : List Bytes} {ending : FrameError} {c : Connection}
    (h : greet incoming ending = .ok c) :
    ∃ greeting, incoming = greeting :: c.incoming ∧ c.capabilities = greeted greeting := by
  rcases incoming with _ | ⟨greeting, rest⟩
  · cases h
  · refine ⟨greeting, ?_⟩
    -- A connection begins with a condition, whose code is noticed.
    have hnotice : ∀ code condition text,
        Response.read greeting = .ok (.untagged (.condition condition code text)) →
        notice ⟨rest, ending, [], {}, []⟩ code = c →
        greeting :: rest = greeting :: c.incoming ∧ c.capabilities = greeted greeting := by
      intro code condition text hread hc
      subst hc
      unfold greeted Line.reported?
      rw [hread]
      rcases code with _ | ⟨_ | _ | _ | _ | _ | _ | _⟩ <;> exact ⟨rfl, rfl⟩
    unfold greet at h
    dsimp only at h
    split at h
    · cases h
    · next code text hread => exact hnotice code .ok text hread (Except.ok.inj h)
    · next code text hread => exact hnotice code .preauth text hread (Except.ok.inj h)
    · cases h
    · cases h

section
variable {α β : Type} {f : α → Option β} {a : α} {before after as : List α}

theorem last_of_filterMap (f : α → Option β) (as : List α) :
    (∀ a ∈ as, f a = none) ∨ ∃ before a after b, as = before ++ a :: after ∧ f a = some b ∧
      ∀ a ∈ after, f a = none := by
  induction as with
  | nil => exact .inl (fun _ ha => absurd ha List.not_mem_nil)
  | cons a as ih =>
    rcases ih with hnone | ⟨before, last, after, b, rfl, hlast, hafter⟩
    · rcases ha : f a with _ | b
      · exact .inl (List.forall_mem_cons.mpr ⟨ha, hnone⟩)
      · exact .inr ⟨[], a, as, b, rfl, ha, hnone⟩
    · exact .inr ⟨a :: before, last, after, b, rfl, hlast, hafter⟩

theorem getLastD_of_none (h : ∀ a ∈ as, f a = none) (b : β) : (as.filterMap f).getLastD b = b := by
  rw [List.filterMap_eq_nil_iff.mpr h]
  rfl

theorem getLastD_of_last (h : ∀ a ∈ after, f a = none) (b : β) :
    ((before ++ a :: after).filterMap f).getLastD b = (f a).getD ((before.filterMap f).getLastD b) := by
  rw [getLastD_filterMap_append, getLastD_filterMap_cons, getLastD_of_none h]

end

namespace Line
variable {l : Line} {capabilities : List Capability}

theorem noticed?_of_none (h : l.reported? = none) : l.noticed? = none := by rw [noticed?, h, ite_self]

theorem noticed?_of_some (h : l.reported? = some capabilities) :
    l.noticed? = if l.isOverlooked then none else some capabilities := by rw [noticed?, h]

end Line

/-- After any commands, whatever comes of them, the client knows the capabilities that the last line
reported, of all that were read, unless this is a line that it overlooks. Then it still knows those of
before. -/
theorem capabilities_last_reported_iff (incoming : List Bytes) (ending : FrameError) (c : Connection)
    (commands : List Command) (h : greet incoming ending = .ok c) :
    ∃ greeting,
      incoming = greeting :: ((c.lines commands).map Line.frame ++ (c.executeAll commands).incoming) ∧
      (c.executeAll commands).capabilities =
        ((c.lines commands).filterMap Line.noticed?).getLastD (greeted greeting) ∧
      ((c.executeAll commands).capabilities =
          ((c.lines commands).filterMap Line.reported?).getLastD (greeted greeting) ↔
        ∀ before line after capabilities, c.lines commands = before ++ line :: after →
          line.reported? = some capabilities → (∀ later ∈ after, later.reported? = none) →
          line.isOverlooked = true →
          capabilities = (before.filterMap Line.noticed?).getLastD (greeted greeting)) := by
  obtain ⟨greeting, hincoming, hgreeted⟩ := greet_capabilities h
  have hknown := executeAll_capabilities c commands
  rw [hgreeted] at hknown
  refine ⟨greeting, by rw [← incoming_lines, hincoming], hknown, ?_⟩
  rw [hknown]
  -- Nothing is noticed after the last line that reports.
  have hlast : ∀ {before line after capabilities}, line.reported? = some capabilities →
      (∀ later ∈ after, later.reported? = none) →
      ((before ++ line :: after).filterMap Line.noticed?).getLastD (greeted greeting) =
        (if line.isOverlooked then none else some capabilities : Option _).getD
          ((before.filterMap Line.noticed?).getLastD (greeted greeting)) := by
    intro before line after capabilities hline hafter
    rw [getLastD_of_last (fun l hl => Line.noticed?_of_none (hafter l hl)), Line.noticed?_of_some hline]
  constructor
  · intro hsame before line after capabilities hlines hline hafter hoverlooked
    rw [hlines, hlast hline hafter, if_pos hoverlooked, getLastD_of_last hafter, hline] at hsame
    exact hsame.symm
  · intro hkept
    rcases last_of_filterMap Line.reported? (c.lines commands) with
      hnone | ⟨before, line, after, capabilities, hlines, hline, hafter⟩
    · rw [getLastD_of_none hnone, getLastD_of_none fun l hl => Line.noticed?_of_none (hnone l hl)]
    · rw [hlines, hlast hline hafter, getLastD_of_last hafter, hline]
      by_cases hoverlooked : line.isOverlooked = true
      · rw [if_pos hoverlooked]
        exact (hkept before line after capabilities hlines hline hafter hoverlooked).symm
      · rw [if_neg hoverlooked]
        rfl

/-- A server that says farewell with what it can do, and then refuses a login before it has asked for the
password. -/
def leaving : List Bytes :=
  [Octet.ofText "* OK [CAPABILITY IMAP4rev1] hi\r\n", Octet.ofText "* BYE [CAPABILITY IMAP4rev1 IDLE] bye\r\n",
    Octet.ofText "A0001 OK done\r\n", Octet.ofText "A0002 NO [CAPABILITY IMAP4rev1 MOVE] no\r\n"]

/-- The client still knows what the greeting said. -/
theorem capabilities_last_reported_leaving :
    ∃ c, greet leaving .closed = .ok c ∧
      (c.lines [.capability, .login "ann" "pä"]).filterMap Line.reported? =
        [[.imap4rev1, .other "IDLE"], [.imap4rev1, .move]] ∧
      (c.executeAll [.capability, .login "ann" "pä"]).capabilities = [.imap4rev1] := by
  refine ⟨_, rfl, by decide, ?_⟩
  obtain ⟨greeting, hincoming, hknown, -⟩ :=
    capabilities_last_reported_iff leaving .closed _ [.capability, .login "ann" "pä"] rfl
  have hgreeted : greeted greeting = [.imap4rev1] := by
    rw [← (List.cons.inj hincoming).1]
    decide
  rw [hgreeted] at hknown
  exact hknown.trans (by decide)

end Mailroom.Connection
