import Mailroom.Proofs.Imap.Sending
import Mailroom.Proofs.Imap.Wire
import Mailroom.Proofs.Session.Calls
import Mailroom.Proofs.Session.Hearing

/-! What a session over a connection writes.

A call writes nothing, or the beginning of one command (`Connection.Wrote`). `perform_turnout` says what
a call can come to: messages are asked for only while a folder is open, and an attempt to open one that
fails closes the session for good. By induction on the calls the open folder is the one that the last
attempt opened (`follow_standing`), so that `message_commands_need_folder` says of every course of
calls when a command about messages is written. -/
namespace Mailroom

/-! ### What a command writes -/

/-- No name of a command is the beginning of another one. -/
theorem name_of_begins : ∀ name ∈ commandNames, ∀ other ∈ messageCommands,
    Utf8.encode name <+: Utf8.encode other ∨ Utf8.encode other <+: Utf8.encode name → name = other := by
  decide +kernel

namespace Request

/-- What stands at the beginning of a command is the beginning of its first part. -/
theorem partsFrom_begin (unasked : Bool) (part : Bytes) (pieces : List Piece) :
    ∃ rest later, partsFrom unasked part pieces = (part ++ rest) :: later := by
  induction pieces generalizing part with
  | nil => exact ⟨[], [], by rw [partsFrom, List.append_nil]⟩
  | cons piece pieces ih =>
    cases piece with
    | plain bytes =>
      obtain ⟨rest, later, h⟩ := ih (part ++ bytes)
      exact ⟨bytes ++ rest, later, by rw [partsFrom, h, List.append_assoc]⟩
    | counted bytes =>
      cases unasked with
      | true =>
        obtain ⟨rest, later, h⟩ := ih (part ++ announcement true bytes.length ++ bytes)
        refine ⟨announcement true bytes.length ++ bytes ++ rest, later, ?_⟩
        rw [partsFrom, if_pos rfl, h]
        simp only [List.append_assoc]
      | false => exact ⟨announcement false bytes.length, partsFrom false bytes pieces, rfl⟩

end Request

/-- A command begins with its tag and its name. -/
theorem Command.request_begin (command : Command) (tag : String) (unasked : Bool) : ∃ rest later,
    command.request tag unasked =
      (Utf8.encode tag ++ [Octet.space] ++ Utf8.encode command.name ++ rest) :: later := by
  rw [Command.request, Request.parts, List.cons_append, Piece.text, Request.partsFrom]
  exact Request.partsFrom_begin ..

namespace Connection

/-- How a command of that name begins: with the next tag and the name. -/
def lineStart (c : Connection) (name : String) : Bytes :=
  Utf8.encode c.tags.current ++ [Octet.space] ++ Utf8.encode name

/-- Between the two states of a connection something has been written that begins as a command of that
name does. -/
def Began (c d : Connection) (name : String) : Prop := ∃ rest, d.sent = c.sent ++ (c.lineStart name ++ rest)

/-- Between the two states of a connection the command has been written, under the next tag, up to one
of its parts. -/
structure Wrote (c d : Connection) (command : Command) : Prop where
  parts : ∃ n, d.written =
    ((command.request c.tags.current (c.has .literalPlus)).take (n + 1)).reverse ++ c.written
  began : c.Began d command.name

theorem not_began {c d : Connection} (h : d.written = c.written) (name : String) : ¬c.Began d name := by
  rintro ⟨rest, hrest⟩
  simp [sent, h, lineStart] at hrest

theorem execute_wrote (c : Connection) (command : Command) : c.Wrote (c.execute command).2 command := by
  obtain ⟨first, unsent, hparts, hbegin⟩ :=
    execute_begin command c.tags.current (c.has .literalPlus)
  obtain ⟨d, hrun, hfirst⟩ := hbegin c rfl rfl
  obtain ⟨heard, h⟩ := converse_sends command c.tags.current ⟨unsent, [], none, none⟩ c.incoming
  have hwritten : (c.execute command).2.written =
      ((first :: unsent).take (askings heard + 1)).reverse ++ c.written := by
    have hsent := h.sent d c.incoming.length
    have hlength : heard.length ≤ c.incoming.length := by
      have hreceived := congrArg List.length (h.received d)
      rw [List.length_append] at hreceived
      omega
    rw [List.take_length, List.take_of_length_le hlength, hfirst] at hsent
    rw [hrun, hsent, List.take_succ_cons, List.reverse_cons, List.append_assoc]
    rfl
  obtain ⟨rest, later, hline⟩ := command.request_begin c.tags.current (c.has .literalPlus)
  rw [hparts] at hline
  cases hline
  refine ⟨⟨askings heard, by rw [hparts, hwritten]⟩, rest ++ (unsent.take (askings heard)).flatten, ?_⟩
  rw [Connection.sent, hwritten, Connection.sent]
  simp [lineStart]

/-- From what has been written it can be told which command it was. -/
theorem Wrote.name_eq {c d : Connection} {command : Command} (h : c.Wrote d command) {name : String}
    (hname : name ∈ messageCommands) (hbegan : c.Began d name) : command.name = name := by
  obtain ⟨rest, hrest⟩ := h.began
  obtain ⟨rest', hrest'⟩ := hbegan
  rw [hrest, lineStart, lineStart] at hrest'
  simp only [List.append_assoc, List.append_cancel_left_eq] at hrest'
  have hbegins : Utf8.encode command.name <+: Utf8.encode name ++ rest' := ⟨rest, hrest'⟩
  exact name_of_begins command.name command.name_mem name hname
    (List.prefix_or_prefix_of_prefix hbegins (List.prefix_append _ _))

end Connection

/-! ### Requests over a connection -/

/-- Over any connection the request sends this command, and does nothing else to the connection. -/
def Talk.Carries {α : Type} (op : Talk α) (command : Command) : Prop :=
  ∀ c, (op c).2 = (c.execute command).2

namespace Client
variable {α : Type} {command : Command} {c : Connection}

theorem ask_carries (command : Command) (f : Answer → α) :
    Talk.Carries (ask command >>= fun answer => pure (f answer)) command := by
  intro c
  have hask : ask command c = c.execute command := rfl
  rw [bind_run, hask]
  rcases c.execute command with ⟨e | answer, d⟩ <;> rfl

theorem tell_carries (command : Command) : Talk.Carries (tell command) command := ask_carries command _

theorem tryCatch_run (op : Talk α) (handle : ImapError → Talk α) (c : Connection) :
    tryCatch op handle c = match op c with
      | (.ok a, d) => (.ok a, d)
      | (.error e, d) => handle e d := by
  simp only [tryCatch, tryCatchThe, MonadExceptOf.tryCatch, ExceptT.tryCatch, ExceptT.mk, bind,
    StateT.bind]
  rcases op c with ⟨_ | _, d⟩
  · rfl
  · rfl

theorem require_run (capability : Capability) (violation : Violation) (c : Connection) :
    require capability violation c =
      (if c.has capability then .ok () else .error (.protocol violation), c) := by
  rw [require, bind_ok (get_run c)]
  by_cases h : c.has capability = true <;> simp [h]

theorem logout_carries : Talk.Carries logout .logout := by
  intro c
  rw [logout, tryCatch_run, ← tell_carries .logout c]
  rcases tell .logout c with ⟨e | _, d⟩
  · cases e <;> rfl
  · rfl

end Client

/-! ### What a call comes to -/

namespace ImapSession
variable {s t : ImapSession} {call : SessionCall} {command : Command} {α β : Type}

/-- The session once a command has been sent and its answer read. -/
def asked (s : ImapSession) (command : Command) : ImapSession :=
  { s with connection := (s.connection.execute command).2 }

/-- The session may send the command: if it is about messages a folder is open, and the server can do
it. -/
structure Allows (s : ImapSession) (command : Command) : Prop where
  folder : command.name ∈ messageCommands → ∃ folder, s.state = .opened folder
  move : command.name = "UID MOVE" → Capability.move ∈ s.connection.capabilities
  expunge : command.name = "UID EXPUNGE" → Capability.uidPlus ∈ s.connection.capabilities

/-- What can come of a call: what it gives, and the session that it leaves. -/
inductive Turnout (s : ImapSession) (call : SessionCall) : Except SessionError Unit → ImapSession → Prop
  | nothing (h : call.isIdle = true ∨ call = .logout ∧ s.state = .closed) : Turnout s call (.ok ()) s
  | refused {e : SessionError} (hbusy : call.isIdle = false) (hlogout : call ≠ .logout)
    (hclosed : s.state = .closed → e = .closed) (hopens : call.opens.isSome = true → s.state = .closed) :
    Turnout s call (.error e) s
  | sent {result : Except SessionError Unit} {command : Command} (hline : s.state ≠ .closed)
    (hopens : call.opens = none) (hallows : s.Allows command) : Turnout s call result (s.asked command)
  | opened {command : Command} (folder : String) (hline : s.state ≠ .closed)
    (hopens : call.opens.isSome = true) (hallows : s.Allows command) :
    Turnout s call (.ok ()) { s.asked command with state := .opened folder }
  | lost {e : SessionError} {command : Command} (hline : s.state ≠ .closed)
    (hopens : call.opens.isSome = true) (hallows : s.Allows command) :
    Turnout s call (.error e) { s.asked command with state := .closed }

/-- A command that is not about messages is always allowed. -/
theorem allows_of_name (name : String) (hname : command.name = name) (h : name ∉ messageCommands) :
    s.Allows command := by
  subst hname
  exact ⟨fun hname => absurd hname h, fun hname => absurd (hname ▸ by decide) h,
    fun hname => absurd (hname ▸ by decide) h⟩

theorem talk_asked {op : Talk α} (h : op.Carries command) : (talk op s).2 = s.asked command := by
  rw [asked, ← h s.connection]
  rfl

theorem talk_congr {op op' : Talk α} (h : op s.connection = op' s.connection) : talk op s = talk op' s := by
  rw [talk, h]
  rfl

/-- What is made of an answer changes nothing more. -/
theorem talk_then_asked {op : Talk α} (h : op.Carries command) (f : α → β) :
    ((talk op >>= fun a => pure (f a)) s).2 = s.asked command := by
  rw [← talk_asked h, bind_run]
  rcases talk op s with ⟨_ | _, _⟩ <;> rfl

section
variable (hbusy : call.isIdle = false) (hlogout : call ≠ .logout) (hopens : call.opens = none)
include hbusy hlogout hopens

/-- A request about messages is refused where no folder is open. -/
theorem onFolder_turnout {next : SessionM ImapSession α}
    (hnext : ∀ folder, s.state = .opened folder → (∃ e, next s = (.error e, s)) ∨
      ∃ command, (next s).2 = s.asked command ∧ s.Allows command) :
    Turnout s call (outcome (requireFolder >>= fun _ => next) s).1
      (outcome (requireFolder >>= fun _ => next) s).2 := by
  rw [outcome_run, bind_run, requireFolder_run]
  rcases hstate : s.state with _ | folder | _
  · exact .refused hbusy hlogout (by simp [hstate]) (by simp [hopens])
  · rcases hnext folder hstate with ⟨e, he⟩ | ⟨command, hasked, hallows⟩
    · show Turnout s call ((next s).1.map _) (next s).2
      rw [he]
      exact .refused hbusy hlogout (by simp [hstate]) (by simp [hopens])
    · show Turnout s call ((next s).1.map _) (next s).2
      rw [hasked]
      exact .sent (by simp [hstate]) hopens hallows
  · exact .refused hbusy hlogout (fun _ => rfl) (by simp [hopens])

/-- A request about mailboxes is refused where the session is closed. -/
theorem manage_turnout {op : Talk α} (hop : op.Carries command) (hallows : s.Allows command) :
    Turnout s call (outcome (manage op) s).1 (outcome (manage op) s).2 := by
  rw [outcome_run, manage, bind_run, requireLine_run]
  by_cases hstate : s.state = .closed
  · rw [if_pos hstate]
    exact .refused hbusy hlogout (fun _ => rfl) (by simp [hopens])
  · rw [if_neg hstate]
    show Turnout s call ((talk op s).1.map _) (talk op s).2
    rw [talk_asked hop]
    exact .sent hstate hopens hallows

theorem tell_turnout (hallows : s.Allows command) :
    Turnout s call (manage (Client.tell command) s).1 (manage (Client.tell command) s).2 := by
  rw [← outcome_unit (manage (Client.tell command))]
  exact manage_turnout hbusy hlogout hopens (Client.tell_carries command) hallows

end

/-- A request about given messages comes to nothing if there are none. -/
theorem withMessages_turnout {uids : UidSet} {op : Talk Unit} (hgiven : call.given = some uids)
    (hop : ∀ folder, s.state = .opened folder → (∃ e, talk op s = (.error e, s)) ∨
      ∃ command, (talk op s).2 = s.asked command ∧ s.Allows command) :
    Turnout s call (withMessages uids op s).1 (withMessages uids op s).2 := by
  have hlogout : call ≠ .logout := by
    rintro rfl
    cases hgiven
  have hopens : call.opens = none := by
    cases call <;> first | rfl | cases hgiven
  unfold withMessages
  by_cases hempty : uids.isEmpty = true
  · rw [if_pos hempty]
    exact .nothing (.inl (by simp [SessionCall.isIdle, hgiven, hempty]))
  · rw [if_neg hempty, ← outcome_unit (requireFolder >>= fun _ => talk op)]
    exact onFolder_turnout (by simp [SessionCall.isIdle, hgiven, hempty]) hlogout hopens hop

/-- The command that opens a folder. -/
def openingCommand (folder : String) (readOnly : Bool) : Command :=
  if readOnly then .examine folder else .select folder

theorem openingCommand_allows (folder : String) (readOnly : Bool) :
    s.Allows (openingCommand folder readOnly) := by
  cases readOnly with
  | false => exact allows_of_name "SELECT" rfl (by decide)
  | true => exact allows_of_name "EXAMINE" rfl (by decide)

/-- While a folder is being opened the session counts as closed, and if it cannot be opened it stays
so. -/
theorem selectFolder_turnout (folder : String) (readOnly : Bool) :
    Turnout s (.selectFolder folder readOnly) (outcome (selectFolder folder readOnly) s).1
      (outcome (selectFolder folder readOnly) s).2 := by
  have hallows : s.Allows (openingCommand folder readOnly) := openingCommand_allows folder readOnly
  have hline := requireLine_run s
  rw [outcome_run, selectFolder]
  by_cases hstate : s.state = .closed
  · rw [if_pos hstate] at hline
    rw [bind_error hline]
    exact .refused rfl nofun (fun _ => rfl) fun _ => hstate
  · rw [if_neg hstate] at hline
    rw [bind_ok hline, bind_ok (modify_run _ _)]
    have hasked := talk_asked (s := { s with state := .closed })
      (Client.ask_carries (openingCommand folder readOnly) (Client.statusOf readOnly))
    rcases htalk : talk (Client.openMailbox folder readOnly) { s with state := .closed } with ⟨e | status, t⟩
    · have ht : t = { s.asked (openingCommand folder readOnly) with state := .closed } :=
        (congrArg Prod.snd htalk).symm.trans hasked
      rw [bind_error htalk, ht]
      exact .lost hstate rfl hallows
    · have ht : t = { s.asked (openingCommand folder readOnly) with state := .closed } :=
        (congrArg Prod.snd htalk).symm.trans hasked
      rw [bind_ok htalk, bind_ok (modify_run _ _), pure_run, ht]
      exact .opened folder hstate rfl hallows

theorem logout_turnout : Turnout s .logout (logout s).1 (logout s).2 := by
  rw [logout, bind_ok (get_run s)]
  by_cases hstate : s.state = .closed
  · rw [if_pos hstate]
    exact .nothing (.inr ⟨rfl, hstate⟩)
  · rw [if_neg hstate, talk_asked Client.logout_carries]
    exact .sent hstate rfl (allows_of_name "LOGOUT" rfl (by decide))

/-- With a folder open, messages can be asked for. -/
theorem allows_of_opened (name : String) (hname : command.name = name) {folder : String}
    (hstate : s.state = .opened folder) (hmove : name ≠ "UID MOVE") (hexpunge : name ≠ "UID EXPUNGE") :
    s.Allows command where
  folder _ := ⟨folder, hstate⟩
  move h := absurd (hname.symm.trans h) hmove
  expunge h := absurd (hname.symm.trans h) hexpunge

theorem fetch_turnout (uids : UidSet) (attributes : List FetchAttribute) :
    Turnout s (.fetch uids attributes) (outcome (fetch uids attributes) s).1
      (outcome (fetch uids attributes) s).2 := by
  unfold fetch
  by_cases hempty : uids.isEmpty = true
  · rw [if_pos hempty, outcome_run]
    exact .nothing (.inl (by simp [SessionCall.isIdle, SessionCall.given, hempty]))
  · rw [if_neg hempty]
    refine onFolder_turnout (by simp [SessionCall.isIdle, SessionCall.given, hempty]) (by simp) rfl
      fun folder hstate => .inr ⟨.fetch uids attributes, ?_, ?_⟩
    · exact talk_then_asked (Client.ask_carries _ _) _
    · exact allows_of_opened "UID FETCH" rfl hstate (by decide) (by decide)

/-- A move is asked for only if the server can do that. -/
theorem move_turnout (uids : UidSet) (destination : String) :
    Turnout s (.moveMessages uids destination) (withMessages uids (Client.move uids destination) s).1
      (withMessages uids (Client.move uids destination) s).2 := by
  refine withMessages_turnout rfl fun folder hstate => ?_
  have hrequire := Client.require_run .move .noMove s.connection
  rw [Client.move]
  by_cases hhas : s.connection.has .move = true
  · rw [if_pos hhas] at hrequire
    rw [talk_congr (bind_ok hrequire)]
    exact .inr ⟨.move uids destination, talk_asked (Client.tell_carries _), fun _ => ⟨folder, hstate⟩,
      fun _ => List.contains_iff_mem.mp hhas, fun h => absurd h (by simp [Command.name])⟩
  · rw [if_neg hhas] at hrequire
    rw [talk, bind_error hrequire]
    exact .inl ⟨_, rfl⟩

/-- Which command removes messages depends on what the server can do. -/
theorem talk_expunge (uids : UidSet) (s : ImapSession) : talk (expungeTalk uids) s =
    talk (Client.tell (if s.connection.has .uidPlus then .expungeOnly uids else .expunge)) s := by
  refine talk_congr ?_
  rw [expungeTalk, bind_ok (get_run _), Client.tell, bind_run]
  by_cases hhas : s.connection.has .uidPlus = true
  · have hrequire := Client.require_run .uidPlus .noUidPlus s.connection
    rw [if_pos hhas] at hrequire
    rw [if_pos hhas, if_pos hhas, bind_run, Client.expungeOnly, bind_ok hrequire, map_run]
    rcases Client.ask (.expungeOnly uids) s.connection with ⟨_ | _, _⟩ <;> rfl
  · rw [if_neg hhas, if_neg hhas, bind_run, Client.expunge, map_run]
    rcases Client.ask .expunge s.connection with ⟨_ | _, _⟩ <;> rfl

/-- A removal is held to the given messages only if the server can do that. -/
theorem expunge_turnout (uids : UidSet) :
    Turnout s (.expunge uids) (withMessages uids (expungeTalk uids) s).1
      (withMessages uids (expungeTalk uids) s).2 := by
  refine withMessages_turnout rfl fun folder hstate => .inr ?_
  rw [talk_expunge]
  by_cases hhas : s.connection.has .uidPlus = true
  · rw [if_pos hhas]
    exact ⟨.expungeOnly uids, talk_asked (Client.tell_carries _), fun _ => ⟨folder, hstate⟩,
      fun h => absurd h (by simp [Command.name]), fun _ => List.contains_iff_mem.mp hhas⟩
  · rw [if_neg hhas]
    exact ⟨.expunge, talk_asked (Client.tell_carries _),
      allows_of_opened "EXPUNGE" rfl hstate (by decide) (by decide)⟩

/-- What a call can come to. -/
theorem perform_turnout (s : ImapSession) (call : SessionCall) :
    Turnout s call (call.perform s).1 (call.perform s).2 := by
  cases call with
  | listFolders =>
    exact manage_turnout rfl (by simp) rfl (Client.ask_carries (.list "" "*") _)
      (allows_of_name "LIST" rfl (by decide))
  | selectFolder folder readOnly => exact selectFolder_turnout folder readOnly
  | search keys =>
    refine onFolder_turnout rfl (by simp) rfl fun folder hstate => .inr ⟨.search keys, ?_, ?_⟩
    · exact talk_then_asked (Client.ask_carries _ _) _
    · exact allows_of_opened "UID SEARCH" rfl hstate (by decide) (by decide)
  | fetch uids attributes => exact fetch_turnout uids attributes
  | moveMessages uids destination => exact move_turnout uids destination
  | copyMessages uids destination =>
    refine withMessages_turnout rfl fun folder hstate => .inr ⟨_, talk_asked (Client.tell_carries _), ?_⟩
    exact allows_of_opened "UID COPY" rfl hstate (by decide) (by decide)
  | deleteMessages uids =>
    refine withMessages_turnout rfl fun folder hstate => .inr ⟨_, talk_asked (Client.tell_carries _), ?_⟩
    exact allows_of_opened "UID STORE" rfl hstate (by decide) (by decide)
  | expunge uids => exact expunge_turnout uids
  | createFolder folder =>
    exact tell_turnout rfl (by simp) rfl (allows_of_name "CREATE" rfl (by decide))
  | renameFolder old new =>
    exact tell_turnout rfl (by simp) rfl (allows_of_name "RENAME" rfl (by decide))
  | deleteFolder folder =>
    exact tell_turnout rfl (by simp) rfl (allows_of_name "DELETE" rfl (by decide))
  | logout => exact logout_turnout

/-- A call writes nothing, or one command that the session may send. -/
theorem Turnout.writes {result : Except SessionError Unit} (h : s.Turnout call result t) :
    t.connection.written = s.connection.written ∨
      ∃ command, s.connection.Wrote t.connection command ∧ s.state ≠ .closed ∧ s.Allows command := by
  cases h with
  | nothing | refused => exact .inl rfl
  | sent hline _ hallows | opened _ hline _ hallows | lost hline _ hallows =>
    exact .inr ⟨_, s.connection.execute_wrote _, hline, hallows⟩

/-- Once the session is closed nothing is written, and every call fails that has something to do. -/
theorem Turnout.closed {result : Except SessionError Unit} (h : s.Turnout call result t)
    (hclosed : s.state = .closed) : t = s ∧
      result = if call = .logout ∨ call.isIdle = true then .ok () else .error .closed := by
  cases h with
  | nothing hcall => exact ⟨rfl, by rw [if_pos (hcall.symm.imp_left And.left)]⟩
  | refused hbusy hlogout he => exact ⟨rfl, by rw [if_neg (by simp [hbusy, hlogout]), he hclosed]⟩
  | sent hline | opened _ hline | lost hline => exact absurd hclosed hline

theorem capabilities_of_line (h : s.state ≠ .closed) :
    MailSession.capabilities s = s.connection.capabilities := by
  show s.capabilities = _
  unfold capabilities
  split
  · contradiction
  · rfl

/-! ### Courses of calls -/

/-- A folder is open only if the last attempt to open one succeeded, and after any attempt that failed the
session is closed. -/
structure Standing (w : Course ImapSession) : Prop where
  opened : ∀ folder, w.session.state = .opened folder → w.OpensLast
  lost : w.FailsToOpen → w.session.state = .closed

/-- Only an attempt to open a folder changes how the session stands. -/
theorem Turnout.state_eq {result : Except SessionError Unit} (h : s.Turnout call result t)
    (hopens : call.opens = none) : t.state = s.state := by
  cases h with
  | nothing | refused | sent => rfl
  | opened _ _ hcall | lost _ hcall => simp [hopens] at hcall

/-- An attempt to open a folder leaves it open if it succeeds, and the session closed if it fails. -/
theorem Turnout.opening {result : Except SessionError Unit} (h : s.Turnout call result t)
    (hopens : call.opens.isSome = true) :
    result = .ok () ∧ s.state ≠ .closed ∨ result ≠ .ok () ∧ t.state = .closed := by
  cases h with
  | nothing hcall =>
    rcases hcall with hidle | ⟨rfl, -⟩
    · simp [SessionCall.opens_of_isIdle hidle] at hopens
    · cases hopens
  | refused _ _ _ hclosed => exact .inr ⟨nofun, hclosed hopens⟩
  | sent _ hnone => simp [hnone] at hopens
  | opened _ hline => exact .inl ⟨rfl, hline⟩
  | lost => exact .inr ⟨nofun, rfl⟩

theorem standing_next (w : Course ImapSession) (call : SessionCall) (h : Standing w) :
    Standing (w.next call) := by
  have hturnout := perform_turnout w.session call
  have hlast := opensLast_next w call
  have hfails := failsToOpen_next w call
  rw [← next_session] at hturnout
  by_cases hopens : call.opens.isSome = true
  · rw [if_pos hopens] at hlast
    rcases hturnout.opening hopens with ⟨hok, hline⟩ | ⟨hfailed, hclosed⟩
    · refine ⟨fun _ _ => hlast.mpr hok, fun hlost => ?_⟩
      rcases hfails.mp hlost with ⟨-, hfailed⟩ | hlost
      · exact absurd hok hfailed
      · exact absurd (h.lost hlost) hline
    · exact ⟨fun folder hstate => absurd (hclosed.symm.trans hstate) nofun, fun _ => hclosed⟩
  · rw [if_neg hopens] at hlast
    have hstate := hturnout.state_eq (Option.not_isSome_iff_eq_none.mp hopens)
    refine ⟨fun folder hopened => hlast.mpr (h.opened folder (hstate ▸ hopened)), fun hlost => ?_⟩
    rcases hfails.mp hlost with ⟨hcall, -⟩ | hlost
    · exact absurd hcall hopens
    · exact hstate.trans (h.lost hlost)

theorem follow_standing (c : Connection) (calls : List SessionCall) :
    Standing (follow ⟨c, .loggedIn⟩ calls) :=
  follow_induction ⟨nofun, by simp [Course.FailsToOpen]⟩ standing_next calls

/-- Whatever the server sends and whatever calls are made after logging in: a call writes nothing, or one
command. Commands about messages are written only if the last attempt to open a folder succeeded, and only
if the server said it can do them. After any attempt that failed nothing is written, no capabilities are
known, and every call fails that had something to do. -/
theorem message_commands_need_folder (c : Connection) (calls : List SessionCall) (call : SessionCall) :
    let w := follow (⟨c, .loggedIn⟩ : ImapSession) calls
    let (result, after) := call.perform w.session
    (after.connection.written = w.session.connection.written ∨
      ∃ command, w.session.connection.Wrote after.connection command) ∧
    (∀ name ∈ messageCommands, w.session.connection.Began after.connection name →
      w.OpensLast ∧
      (name = "UID MOVE" → .move ∈ MailSession.capabilities w.session) ∧
      (name = "UID EXPUNGE" → .uidPlus ∈ MailSession.capabilities w.session)) ∧
    (w.FailsToOpen →
      after.connection.written = w.session.connection.written ∧
      MailSession.capabilities w.session = [] ∧
      result = if call = .logout ∨ call.isIdle = true then .ok () else .error .closed) := by
  intro w
  have hstanding : Standing w := follow_standing c calls
  have hturnout := perform_turnout w.session call
  generalize call.perform w.session = outcome at *
  refine ⟨hturnout.writes.imp_right fun ⟨command, hwrote, _⟩ => ⟨command, hwrote⟩, ?_, fun hlost => ?_⟩
  · intro name hname hbegan
    rcases hturnout.writes with hnothing | ⟨command, hwrote, hline, hallows⟩
    · exact absurd hbegan (Connection.not_began hnothing name)
    · obtain rfl := hwrote.name_eq hname hbegan
      rw [capabilities_of_line hline]
      obtain ⟨folder, hopened⟩ := hallows.folder hname
      exact ⟨hstanding.opened folder hopened, hallows.move, hallows.expunge⟩
  · have hclosed := hstanding.lost hlost
    obtain ⟨hsame, hresult⟩ := hturnout.closed hclosed
    refine ⟨by rw [hsame], ?_, hresult⟩
    show w.session.capabilities = []
    rw [capabilities, hclosed]

/-- A server that opens a folder and then says no more. -/
def oneFolder : Connection := ⟨[Octet.ofText "A0001 OK done\r\n"], .closed, [], {}, [.move]⟩

/-- Messages can be moved while the folder is open, and no more once it could not be opened again. -/
theorem message_commands_need_folder_reopened :
    let opening : SessionCall := .selectFolder "INBOX" false
    let moving : SessionCall := .moveMessages (SortedSet.ofList [Uid.least]) "Sent"
    let w := follow (⟨oneFolder, .loggedIn⟩ : ImapSession) [opening]
    let lost := follow (⟨oneFolder, .loggedIn⟩ : ImapSession) [opening, opening]
    (w.session.connection.Began (moving.perform w.session).2.connection "UID MOVE" ∧ w.OpensLast) ∧
      lost.FailsToOpen ∧ (moving.perform lost.session).1 = .error .closed := by
  intro opening moving w lost
  have hbegan : w.session.connection.Began (moving.perform w.session).2.connection "UID MOVE" :=
    ⟨Octet.ofText " 1 Sent\r\n", by decide +kernel⟩
  have hfails : (opening.perform w.session).1.isOk = false := by decide +kernel
  have hlost : lost.FailsToOpen := by
    refine (failsToOpen_next w opening).mpr (.inl ⟨rfl, fun hok => ?_⟩)
    rw [hok] at hfails
    cases hfails
  have hopened := message_commands_need_folder oneFolder [opening] moving
  have hclosed := message_commands_need_folder oneFolder [opening, opening] moving
  exact ⟨⟨hbegan, (hopened.2.1 "UID MOVE" (by decide) hbegan).1⟩, hlost, (hclosed.2.2 hlost).2.2⟩

end ImapSession

end Mailroom
