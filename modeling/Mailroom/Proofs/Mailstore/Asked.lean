import Mailroom.Proofs.Imap.Wire
import Mailroom.Proofs.Mailstore.Requests
import Mailroom.Proofs.Session.Calls
import Mailroom.Proofs.Session.Footprint
import Mailroom.Proofs.Text.Numerals

/-! What a store has on record of the calls of a session.

A command is recorded with its name in front, and no name begins another, so that the name of a command is
told from the record (`isPrefix_recorded_iff`). Whatever comes of a call, the store records commands of its
own (`SessionCall.commandNames`), and nothing else (`perform_asks`). -/
namespace Mailroom

/-- The names of the commands that a call may need. -/
def SessionCall.commandNames : SessionCall → List String
  | listFolders => ["LIST"]
  | selectFolder .. => ["SELECT", "EXAMINE"]
  | search _ => ["UID SEARCH"]
  | fetch .. => ["UID FETCH"]
  | moveMessages .. => ["UID MOVE"]
  | copyMessages .. => ["UID COPY"]
  | deleteMessages _ => ["UID STORE"]
  | expunge _ => ["UID EXPUNGE", "EXPUNGE"]
  | createFolder _ => ["CREATE"]
  | renameFolder .. => ["RENAME"]
  | deleteFolder _ => ["DELETE"]
  | logout => ["LOGOUT"]

namespace Mailstore

/-! ### Commands on record -/

namespace Server

theorem name_isPrefix_recorded (command : Command) : command.name.toList <+: (recorded command).toList := by
  have hwire : ∃ rest, command.wire "*" true = Utf8.encode ("* " ++ command.name) ++ rest := by
    rw [Command.wire_eq, Command.pieces, Piece.wireAll_cons, Piece.wireAll_cons, Utf8.encode_append]
    exact ⟨Piece.wireAll true command.arguments ++ Octet.crlf, by simp [Piece.text, Piece.wire]⟩
  obtain ⟨rest, hrest⟩ := hwire
  obtain ⟨later, hlater⟩ := Utf8.isPrefix_lossy ("* " ++ command.name) rest
  have hlast : ∀ c ∈ command.name.toList.getLast?, Blank.isBlank c = false := by
    cases command <;> simp [Command.name, Blank.isBlank]
  rw [recorded, String.toList_ofList, hrest, ← hlater, String.toList_append]
  exact Blank.isPrefix_trimEnd hlast later

/-- A record that begins with the name of a command is that of a command with the name. -/
theorem isPrefix_recorded_iff (command : Command) {name : String} (h : name ∈ commandNames) :
    name.toList <+: (recorded command).toList ↔ command.name = name := by
  constructor
  · intro hprefix
    rcases List.prefix_or_prefix_of_prefix hprefix (name_isPrefix_recorded command) with hfirst | hsecond
    · exact (commandNames_apart name h _ command.name_mem hfirst).symm
    · exact commandNames_apart _ command.name_mem name h hsecond
  · intro hname
    rw [← hname]
    exact name_isPrefix_recorded command

/-- Whether a record begins with the name of a command. -/
def begins (name line : String) : Bool := name.toList.isPrefixOf line.toList

theorem begins_recorded (command : Command) (name : String) (h : name ∈ commandNames) :
    begins name (recorded command) = decide (command.name = name) := by
  rw [begins, Bool.eq_iff_iff, List.isPrefixOf_iff_prefix, isPrefix_recorded_iff command h, decide_eq_true_iff]

end Server

/-! ### What calls ask -/

namespace Session

/-- Between the two sessions the store has recorded some commands, and their names are all among these. -/
def Asked (names : List String) (s t : Session) : Prop :=
  ∃ commands : List Command, t.server.commands = s.server.commands ++ commands.map Server.recorded ∧
    ∀ c ∈ commands, c.name ∈ names

section
variable {names : List String} {s t : Session}

instance asked_isPreorder : IsPreorder Session (Asked names) where
  refl s := ⟨[], (List.append_nil _).symm, nofun⟩
  trans s t v h h' := by
    obtain ⟨first, hfirst, hfirsts⟩ := h
    obtain ⟨second, hsecond, hseconds⟩ := h'
    refine ⟨first ++ second, ?_, fun c hc => (List.mem_append.mp hc).elim (hfirsts c) (hseconds c)⟩
    rw [hsecond, hfirst, List.map_append, List.append_assoc]

/-- A step that leaves the record as it is asks nothing. -/
theorem asked_of_commands_eq (h : t.server.commands = s.server.commands) : Asked names s t :=
  ⟨[], by rw [h, List.map_nil, List.append_nil], nofun⟩

theorem request_asks (command : Command) (h : command.name ∈ names) : Within (Asked names) (request command) := by
  intro s
  rw [request_run]
  exact ⟨[command], List.reverse_cons, by simpa using h⟩

theorem selected_asks : Within (Asked names) selected := by
  refine .bind .get fun s => ?_
  rcases s.handle.selected with _ | open_
  · exact .throw _
  · exact .pure _

theorem writable_asks : Within (Asked names) writable :=
  selected_asks.bind fun _ => .ite (.throw _) (.pure _)

theorem folders_asks : Within (Asked names) folders := .bind .get fun _ => .pure _

theorem folderNamed_asks (name : String) : Within (Asked names) (folderNamed name) := by
  refine folders_asks.bind fun all => ?_
  rcases all.find? name with _ | f
  · exact .throw _
  · exact .pure f

theorem setFolders_asks (folders : SortedMap String Folder) : Within (Asked names) (setFolders folders) :=
  fun _ => asked_of_commands_eq rfl

theorem changeFolder_asks (name : String) (change : Folder → Folder) :
    Within (Asked names) (changeFolder name change) := by
  refine folders_asks.bind fun all => ?_
  rcases all.find? name with _ | f
  · exact .pure _
  · exact setFolders_asks _

theorem reject_asks {α : Type} (rejection : Rejection) : Within (Asked names) (reject rejection : Op α) := .throw _

theorem transfer_asks (command : Command) (h : command.name ∈ names) (uids : UidSet) (destination : String)
    (removes : Bool) : Within (Asked names) (transfer command uids destination removes) := by
  refine .ite (.bind writable_asks ?rest) (.bind (selected_asks.map _) ?rest)
  intro source
  refine (request_asks command h).bind fun _ => folders_asks.bind fun all => ?_
  refine .guarded (reject_asks _) ((folderNamed_asks source).bind fun f => ?_)
  exact .guarded (changeFolder_asks _ _) (changeFolder_asks _ _)

theorem unlessEmpty_asks (uids : UidSet) {op : Op Unit} (h : Within (Asked names) op) :
    Within (Asked names) (unlessEmpty uids op) := .ite (.pure _) h

theorem has_asks (capability : Capability) : Within (Asked names) (has capability) := .bind .get fun _ => .pure _

theorem selectFolder_asks (name : String) (readOnly : Bool) :
    Within (Asked ["SELECT", "EXAMINE"]) (selectFolder name readOnly) := by
  have hname : (if readOnly then Command.examine name else .select name).name ∈ ["SELECT", "EXAMINE"] := by
    cases readOnly <;> simp [Command.name]
  refine (request_asks _ hname).bind fun _ => folders_asks.bind fun all => ?_
  rcases all.find? name with _ | f
  · exact reject_asks _
  · exact .bind (fun _ => asked_of_commands_eq rfl) fun _ => .pure _

theorem fetch_asks (uids : UidSet) (attributes : List FetchAttribute) :
    Within (Asked ["UID FETCH"]) (fetch uids attributes) := by
  refine selected_asks.bind fun open_ => .ite (.pure _) ?_
  exact (request_asks (.fetch uids attributes) List.mem_cons_self).bind fun _ =>
    (folderNamed_asks _).bind fun _ => .pure _

theorem expunge_asks (uids : UidSet) : Within (Asked ["UID EXPUNGE", "EXPUNGE"]) (expunge uids) := by
  refine unlessEmpty_asks uids (writable_asks.bind fun name => (has_asks .uidPlus).bind fun can => .ite ?_ ?_)
  · exact (request_asks (.expungeOnly uids) List.mem_cons_self).bind fun _ => changeFolder_asks _ _
  · exact (request_asks .expunge (by decide)).bind fun _ => changeFolder_asks _ _

theorem renameFolder_asks (old new : String) : Within (Asked ["RENAME"]) (renameFolder old new) := by
  refine (request_asks (.rename old new) List.mem_cons_self).bind fun _ => folders_asks.bind fun all => ?_
  refine .guarded (reject_asks _) ?_
  rcases all.find? old with _ | f
  · exact reject_asks _
  · exact setFolders_asks _

/-- Whatever comes of a call, the store records commands of its own and nothing else. -/
theorem perform_asks (call : SessionCall) :
    Within (Asked call.commandNames) (call.perform : SessionM Session Unit) := by
  cases call with
  | listFolders =>
    exact ((request_asks (.list "" "*") List.mem_cons_self).bind fun _ => folders_asks.bind fun _ => .pure _).map _
  | selectFolder name readOnly => exact (selectFolder_asks name readOnly).map _
  | search keys =>
    exact (selected_asks.bind fun _ => (request_asks (.search keys) List.mem_cons_self).bind fun _ =>
      (folderNamed_asks _).bind fun _ => .pure _).map _
  | fetch uids attributes => exact (fetch_asks uids attributes).map _
  | moveMessages uids destination =>
    exact unlessEmpty_asks uids ((has_asks .move).bind fun _ => .guarded (.throw _) <|
      transfer_asks (.move uids destination) List.mem_cons_self uids destination true)
  | copyMessages uids destination =>
    exact unlessEmpty_asks uids (transfer_asks (.copy uids destination) List.mem_cons_self uids destination false)
  | deleteMessages uids =>
    exact unlessEmpty_asks uids (writable_asks.bind fun _ =>
      (request_asks (.addFlags uids [.deleted]) List.mem_cons_self).bind fun _ => changeFolder_asks _ _)
  | expunge uids => exact expunge_asks uids
  | createFolder name =>
    exact (request_asks (.create name) List.mem_cons_self).bind fun _ => folders_asks.bind fun _ =>
      .guarded (reject_asks _) (setFolders_asks _)
  | renameFolder old new => exact renameFolder_asks old new
  | deleteFolder name =>
    exact (request_asks (.delete name) List.mem_cons_self).bind fun _ => folders_asks.bind fun _ =>
      .guarded (reject_asks _) (setFolders_asks _)
  | logout =>
    exact (request_asks .logout List.mem_cons_self).bind fun _ => fun _ => asked_of_commands_eq rfl

end

end Session

end Mailstore

end Mailroom
