import Mailroom.Account
import Mailroom.Proofs.Imap.Advertising
import Mailroom.Proofs.Session.Writing
import Mailroom.Session.Script

/-! What an account answers about what the server can do.

A session knows the capabilities that were noticed last until it was there (`ImapSession.start_capabilities`),
and an account remembers those of its first session. The name of a capability is looked for among them in some
places, and in others the capability itself. `answered` says that everywhere the answer is that of the texts
which the server advertised, except about the names that are not understood in a code. -/
namespace Mailroom

/-! ### Logging in -/

namespace ImapSession
open Connection
variable {username password : String} {incoming : List Bytes} {ending : FrameError} {c : Connection}

/-- The commands that are sent until there is a session. -/
def opening (username password : String) (c : Connection) : List Command :=
  if (c.execute (.login username password)).2.capabilities.isEmpty then
    [.login username password, .capability]
  else [.login username password]

/-- The lines that are read until there is a session. -/
def linesRead (username password : String) (incoming : List Bytes) (ending : FrameError) : List Line :=
  match incoming, greet incoming ending with
  | greeting :: _, .ok c => ⟨"", greeting, true⟩ :: c.lines (opening username password c)
  | _, _ => []

theorem login_ok (h : (Client.login username password c).1 = .ok ()) :
    (Client.login username password c).2 = (c.execute (.login username password)).2 := by
  rw [Client.login, bind_ok (get_run c)] at h ⊢
  by_cases hdisabled : c.has .loginDisabled = true
  · rw [if_pos hdisabled] at h
    cases h
  · rw [if_neg hdisabled] at h ⊢
    dsimp only at h ⊢
    rw [Client.tryCatch_run] at h ⊢
    rw [← Client.tell_carries (.login username password) c]
    rcases hrun : Client.tell (.login username password) c with ⟨e | _, d⟩
    · rw [hrun] at h
      cases h
    · rfl

theorem learn_connection (c : Connection) :
    ((learn : Talk Unit) c).2 = if c.capabilities.isEmpty then (c.execute .capability).2 else c := by
  rw [learn, bind_ok (get_run c)]
  by_cases hunknown : c.capabilities.isEmpty = true
  · rw [if_pos hunknown, if_pos hunknown, bind_run, Client.capability, bind_run,
      ← Client.tell_carries .capability c]
    rcases Client.tell .capability c with ⟨_ | _, _⟩ <;> rfl
  · rw [if_neg hunknown, if_neg hunknown]
    rfl

theorem logIn_ok {session : ImapSession} (h : (logIn username password c).1 = .ok session) :
    session = ⟨c.executeAll (opening username password c), .loggedIn⟩ := by
  have hsent := @login_ok username password c
  have hlearnt := learn_connection (Client.login username password c).2
  unfold logIn at h
  split at h
  · cases h
  · next d hlogin =>
    rw [hlogin] at hsent hlearnt
    split at h
    · cases h
    · next e hlearn =>
      rw [hlearn] at hlearnt
      cases h
      dsimp only at hsent hlearnt
      rw [hsent rfl] at hlearnt
      rw [hlearnt, opening]
      split <;> rfl

/-- A session knows what was noticed last until it was there. -/
theorem start_capabilities {session : ImapSession} {written : List Bytes}
    (h : start username password incoming ending = (.ok session, written)) :
    session.capabilities =
      ((linesRead username password incoming ending).filterMap Line.noticed?).getLastD [] := by
  unfold start at h
  split at h
  · cases h
  · next c hgreet =>
    have hsession := logIn_ok (congrArg Prod.fst h)
    obtain ⟨greeting, hincoming, hgreeted⟩ := greet_capabilities hgreet
    rw [hsession]
    show (c.executeAll (opening username password c)).capabilities = _
    unfold linesRead
    rw [hgreet]
    rw [hincoming] at hgreet ⊢
    dsimp only
    rw [getLastD_filterMap_cons, noticed?_greeting hgreet, executeAll_capabilities, hgreeted]
    rfl

end ImapSession

namespace ScriptedServer

theorem connect_capabilities {server left : ScriptedServer} {session : Session}
    (h : server.connect = (.ok session, left)) :
    MailSession.capabilities session =
      ((ImapSession.linesRead server.access.username server.access.password
        (Frame.ofChunks (server.scripts.head?.getD [])).1
        (Frame.ofChunks (server.scripts.head?.getD [])).2).filterMap Connection.Line.noticed?).getLastD [] := by
  unfold connect at h
  split at h
  · cases h
  · dsimp only at h
    split at h
    · cases h
    · next hstart =>
      cases h
      exact ImapSession.start_capabilities hstart

end ScriptedServer

/-! ### Asking an account -/

namespace Account
variable {κ σ : Type} [Connector κ σ] {a : Account κ} {known : List Capability}

/-- The account remembers the capabilities, or remembers none and they are those of its next session. -/
def Knows (a : Account κ) (known : List Capability) : Prop :=
  a.capabilities = some known ∨ a.capabilities = none ∧
    ∃ session connector, Connector.connect a.connector = (.ok session, connector) ∧
      MailSession.capabilities session = known

/-- They are what it answers, and what it remembers. -/
theorem getCapabilities_knows (h : a.Knows known) :
    ∃ b, getCapabilities a = (.ok known, b) ∧ b.capabilities = some known := by
  unfold getCapabilities
  rw [bind_ok (get_run a)]
  rcases h with hremembered | ⟨hforgotten, session, connector, hconnect, hsession⟩
  · rw [hremembered]
    exact ⟨a, rfl, hremembered⟩
  · -- The session that is opened only tells what it knows.
    have hasked : ∃ b, onSession (do pure (MailSession.capabilities (← get)) : Mail σ (List Capability)) a =
        (.ok known, b) := by
      unfold onSession onConnector Connector.withSession
      dsimp only
      rw [hconnect, ← hsession]
      exact ⟨_, rfl⟩
    obtain ⟨b, hb⟩ := hasked
    rw [hforgotten]
    dsimp only
    rw [bind_ok hb, bind_ok (modify_run _ _)]
    exact ⟨_, rfl, rfl⟩

/-- What is asked of them is answered, and they are known still. -/
theorem asking_knows (h : a.Knows known) (f : List Capability → Bool) :
    ∃ b : Account κ, (do pure (f (← getCapabilities)) : Mail (Account κ) Bool) a = (.ok (f known), b) ∧
      b.Knows known := by
  obtain ⟨b, hb, hknown⟩ := getCapabilities_knows h
  exact ⟨b, bind_ok hb, .inl hknown⟩

end Account

namespace ImapSession

theorem withMessages_congr {op op' : Talk Unit} {s : ImapSession} (uids : UidSet)
    (h : talk op s = talk op' s) : withMessages uids op s = withMessages uids op' s := by
  unfold withMessages
  split
  · rfl
  · rw [bind_run, bind_run]
    rcases hrun : requireFolder s with ⟨_ | _, t⟩
    · rfl
    · obtain rfl := requireFolder_ok hrun
      exact h

end ImapSession

/-! ### Asking everywhere -/

open Capability (known)

/-- What is owed to the texts that a server advertised, in a code or not. -/
structure Answered (inCode : Bool) (texts : List String) : Prop where
  /-- A line that advertises the texts reports what is known of them. -/
  reported (l : Connection.Line) : l.Advertises inCode texts → l.frame.length < UInt64.size →
    l.reported? = some (known inCode texts)
  /-- So does a session know it whose beginning no later line reports anything in. -/
  connected (server left : ScriptedServer) (session : ScriptedServer.Session) (before after : List Connection.Line)
      (l : Connection.Line) :
    server.connect = (.ok session, left) →
      ImapSession.linesRead server.access.username server.access.password
          (Frame.ofChunks (server.scripts.head?.getD [])).1 (Frame.ofChunks (server.scripts.head?.getD [])).2 =
        before ++ l :: after →
      l.Advertises inCode texts → l.frame.length < UInt64.size → l.isOverlooked = false →
      (∀ later ∈ after, later.reported? = none) → MailSession.capabilities session = known inCode texts
  /-- An account finds a name exactly among the texts, except for one that is not understood in a code. -/
  named {κ σ : Type} [Connector κ σ] (a : Account κ) (name : String) : a.Knows (known inCode texts) →
    ∃ b, a.hasCapability name = (.ok (Ascii.lists texts name && (!inCode || (Capability.read name).isWord)), b) ∧
      b.Knows (known inCode texts)
  /-- The capabilities on which the client acts are no such exception. -/
  found {κ σ : Type} [Connector κ σ] (a : Account κ) : a.Knows (known inCode texts) →
    ∀ name ∈ ["MOVE", "UIDPLUS"], ∃ b, a.hasCapability name = (.ok (Ascii.lists texts name), b) ∧
      b.Knows (known inCode texts)
  /-- So an account that looks for the capability to move messages finds it exactly among the texts. -/
  movable {κ σ : Type} [Connector κ σ] (a : Account κ) : a.Knows (known inCode texts) →
    ∃ b, a.moveSupported = (.ok (Ascii.lists texts "MOVE"), b) ∧ b.Knows (known inCode texts)
  /-- A session moves messages with the server's own command exactly then. -/
  moved {σ : Type} [MailSession σ] (session : σ) (uids : UidSet) (folder : String) :
    MailSession.capabilities session = known inCode texts →
      MailSession.moveOrCopy uids folder session =
        if Ascii.lists texts "MOVE" then MailSession.moveMessages uids folder session
        else (do
          MailSession.copyMessages uids folder
          MailSession.deleteMessages uids
          MailSession.expunge uids : SessionM σ Unit) session
  /-- And only then does a client send the command. -/
  sent (c : Connection) (uids : UidSet) (mailbox : String) : c.capabilities = known inCode texts →
    Client.move uids mailbox c =
      if Ascii.lists texts "MOVE" then Client.tell (.move uids mailbox) c
      else (.error (.protocol .noMove), c)
  /-- Only the given messages are removed exactly if the texts say that this can be done. -/
  expunged (s : ImapSession) (uids : UidSet) : s.connection.capabilities = known inCode texts →
    MailSession.expunge uids s = ImapSession.withMessages uids
      (Client.tell (if Ascii.lists texts "UIDPLUS" then .expungeOnly uids else .expunge)) s

variable {inCode : Bool} {texts : List String}

theorem moveOrCopy_advertised {σ : Type} [MailSession σ] {session : σ} (uids : UidSet) (folder : String)
    (h : MailSession.capabilities session = known inCode texts) :
    MailSession.moveOrCopy uids folder session =
      if Ascii.lists texts "MOVE" then MailSession.moveMessages uids folder session
      else (do
        MailSession.copyMessages uids folder
        MailSession.deleteMessages uids
        MailSession.expunge uids : SessionM σ Unit) session := by
  have hmove : (known inCode texts).contains .move = Ascii.lists texts "MOVE" :=
    Capability.contains_known rfl inCode texts
  rw [MailSession.moveOrCopy, bind_ok (get_run session), h, hmove, ite_run]

theorem move_advertised {c : Connection} (uids : UidSet) (mailbox : String)
    (h : c.capabilities = known inCode texts) :
    Client.move uids mailbox c =
      if Ascii.lists texts "MOVE" then Client.tell (.move uids mailbox) c
      else (.error (.protocol .noMove), c) := by
  have hmove : c.has .move = Ascii.lists texts "MOVE" := by
    rw [Connection.has, h]
    exact Capability.contains_known rfl inCode texts
  have hrequire := Client.require_run .move .noMove c
  rw [hmove] at hrequire
  rw [Client.move]
  split
  · next hlists =>
    rw [if_pos hlists] at hrequire
    exact bind_ok hrequire
  · next hlists =>
    rw [if_neg hlists] at hrequire
    exact bind_error hrequire

theorem expunge_advertised {s : ImapSession} (uids : UidSet) (h : s.connection.capabilities = known inCode texts) :
    MailSession.expunge uids s = ImapSession.withMessages uids
      (Client.tell (if Ascii.lists texts "UIDPLUS" then .expungeOnly uids else .expunge)) s := by
  have hplus : s.connection.has .uidPlus = Ascii.lists texts "UIDPLUS" := by
    rw [Connection.has, h]
    exact Capability.contains_known rfl inCode texts
  have htalk := ImapSession.talk_expunge uids s
  rw [hplus] at htalk
  exact ImapSession.withMessages_congr uids htalk

/-- However a text is spelled, the capability that it is read as goes by its name. So whatever is asked about what
a server can do is answered by the texts that it advertised. A name is not found only if the texts were in a
code, in which a number and the word for nothing are not understood. -/
theorem answered_by_texts (inCode : Bool) (texts : List String) :
    (∀ text name, (Capability.read text).isNamed name = Ascii.same text name) ∧ Answered inCode texts := by
  refine ⟨Capability.isNamed_read, ?_⟩
  have hnamed : ∀ {κ σ : Type} [Connector κ σ] (a : Account κ) (name : String), a.Knows (known inCode texts) →
      ∃ b, a.hasCapability name = (.ok (Ascii.lists texts name && (!inCode || (Capability.read name).isWord)), b) ∧
        b.Knows (known inCode texts) := by
    intro κ σ _ a name hknown
    rw [← Capability.any_known]
    exact Account.asking_knows hknown fun capabilities => capabilities.any fun c => c.isNamed name
  constructor
  case reported => exact fun l h hend => h.reported hend
  case connected =>
    intro server left session before after l hconnect hlines hadvertises hend hlooked hafter
    rw [ScriptedServer.connect_capabilities hconnect]
    exact Connection.getLastD_advertised hadvertises hend hlooked hlines hafter _
  case named => exact hnamed
  case found =>
    intro κ σ _ a hknown name hname
    have hword : (Capability.read name).isWord = true := by
      simp only [List.mem_cons, List.not_mem_nil, or_false] at hname
      rcases hname with rfl | rfl <;> decide +kernel
    have hfound := hnamed a name hknown
    rwa [hword, Bool.or_true, Bool.and_true] at hfound
  case movable =>
    intro κ σ _ a hknown
    have hasked := Account.asking_knows hknown fun capabilities => capabilities.contains .move
    rwa [Capability.contains_known rfl] at hasked
  case moved => exact fun session uids folder h => moveOrCopy_advertised uids folder h
  case sent => exact fun c uids mailbox h => move_advertised uids mailbox h
  case expunged => exact fun s uids h => expunge_advertised uids h

/-- A server that advertises a number in its greeting. -/
def greetingNumbered : Bytes := Octet.ofText "* OK [CAPABILITY IMAP4rev1 move 42] hi\r\n"

/-- An account on it. -/
def numbered : Account ScriptedServer where
  name := "numbered"
  connector :=
    { access := ⟨"localhost", 143, .none, "u", "p"⟩
      scripts := [[greetingNumbered, Octet.ofText "A0001 OK in\r\n"]] }

deriving instance DecidableEq for Connection.Line

/-- The account finds the word, and not the number. -/
theorem answered_by_texts_numbered :
    (∃ b, numbered.hasCapability "Move" = (.ok true, b)) ∧ (∃ b, numbered.moveSupported = (.ok true, b)) ∧
      (∃ b, numbered.hasCapability "42" = (.ok false, b)) ∧
      Ascii.lists ["IMAP4rev1", "move", "42"] "42" = true := by
  have hanswered := (answered_by_texts true ["IMAP4rev1", "move", "42"]).2
  have hlines : ImapSession.linesRead "u" "p" (Frame.ofChunks (numbered.connector.scripts.head?.getD [])).1
      (Frame.ofChunks (numbered.connector.scripts.head?.getD [])).2 =
        [⟨"", greetingNumbered, true⟩, ⟨"A0001", Octet.ofText "A0001 OK in\r\n", true⟩] := by
    decide +kernel
  have hverdict : Ascii.upper "OK" = Condition.ok.text := by decide +kernel
  have hcode : Connection.Codes "CAPABILITY" ["IMAP4rev1", "move", "42"] "hi" :=
    ⟨by decide +kernel, by decide +kernel, by decide +kernel⟩
  have hadvertises : Connection.Line.Advertises ⟨"", greetingNumbered, true⟩ true ["IMAP4rev1", "move", "42"] :=
    .told hverdict hcode (by decide +kernel)
  have hopened : numbered.connector.connect.1.isOk = true := by decide +kernel
  have hknows : numbered.Knows (known true ["IMAP4rev1", "move", "42"]) := by
    rcases hconnect : numbered.connector.connect with ⟨_ | session, left⟩
    · rw [hconnect] at hopened
      cases hopened
    · exact .inr ⟨rfl, session, left, hconnect, hanswered.connected _ _ _ [] _ _ hconnect hlines hadvertises
        (by decide +kernel) (by decide +kernel) (by decide +kernel)⟩
  obtain ⟨b, hword, -⟩ := hanswered.named numbered "Move" hknows
  obtain ⟨b', hmove, -⟩ := hanswered.movable numbered hknows
  obtain ⟨b'', hnumber, -⟩ := hanswered.named numbered "42" hknows
  refine ⟨⟨b, hword.trans ?_⟩, ⟨b', hmove.trans ?_⟩, ⟨b'', hnumber.trans ?_⟩, by decide +kernel⟩
  · exact congrArg (Except.ok ·, b) (by decide +kernel)
  · exact congrArg (Except.ok ·, b') (by decide +kernel)
  · exact congrArg (Except.ok ·, b'') (by decide +kernel)

end Mailroom
