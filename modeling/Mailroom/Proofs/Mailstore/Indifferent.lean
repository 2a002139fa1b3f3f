import Mailroom.Proofs.Account.Mirrored
import Mailroom.Proofs.Mailstore.Requests

/-! Stores that may differ in whether they fail a logout.

Two stores are `SameButLogout` if they have the same folders and the same on record, and fail the same
commands but for the logout. No call but the logout tells them apart, and they stay so
(`indifferent_mirrors`). -/
namespace Mailroom.Mailstore

/-- The stores differ at most in whether they fail a logout, and in how many sessions have been closed. -/
structure Server.SameButLogout (s t : Server) : Prop where
  folders : s.folders = t.folders
  capabilities : s.capabilities = t.capabilities
  log : s.log = t.log
  refusesLogin : s.refusesLogin = t.refusesLogin
  opened : s.opened = t.opened
  failing : ∀ name, name ≠ "LOGOUT" → (s.failing = some name ↔ t.failing = some name)

namespace Session

/-- The sessions know the same, on stores that are so. -/
structure SameButLogout (s t : Session) : Prop where
  handle : s.handle = t.handle
  server : s.server.SameButLogout t.server

section
variable {s t : Session} {α : Type}

theorem SameButLogout.asked (h : s.SameButLogout t) (command : Command) :
    (s.asked command).SameButLogout (t.asked command) where
  handle := h.handle
  server := { h.server with log := congrArg (_ :: ·) h.server.log }

theorem SameButLogout.withFolders (h : s.SameButLogout t) (folders : SortedMap String Folder) :
    (s.withFolders folders).SameButLogout (t.withFolders folders) where
  handle := h.handle
  server := { h.server with folders := rfl }

theorem request_alike (command : Command) (hcommand : command ≠ .logout) :
    Alike SameButLogout (request command) (request command) := by
  intro s t hst
  have hname : command.name ≠ "LOGOUT" := by
    cases command <;> first | exact absurd rfl hcommand | simp [Command.name]
  rw [request_run, request_run]
  refine ⟨?_, hst.asked command⟩
  simp only [verdict, hst.server.failing command.name hname]

theorem selected_alike : Alike SameButLogout selected selected := by
  refine .get_bind fun s t hst => ?_
  rw [hst.handle]
  rcases t.handle.selected with _ | open_
  · exact .throw _
  · exact .pure _

theorem writable_alike : Alike SameButLogout writable writable :=
  selected_alike.bind fun _ => .ite (.throw _) (.pure _)

theorem folders_alike : Alike SameButLogout folders folders :=
  .get_bind fun s t hst => by
    rw [hst.server.folders]
    exact .pure _

theorem setFolders_alike (folders : SortedMap String Folder) :
    Alike SameButLogout (setFolders folders) (setFolders folders) :=
  .modify fun _ _ hst => hst.withFolders folders

theorem folderNamed_alike (name : String) : Alike SameButLogout (folderNamed name) (folderNamed name) := by
  refine folders_alike.bind fun all => ?_
  rcases all.find? name with _ | f
  · exact .throw _
  · exact .pure f

theorem changeFolder_alike (name : String) (change : Folder → Folder) :
    Alike SameButLogout (changeFolder name change) (changeFolder name change) := by
  refine folders_alike.bind fun all => ?_
  rcases all.find? name with _ | f
  · exact .pure _
  · exact setFolders_alike _

theorem has_alike (capability : Capability) : Alike SameButLogout (has capability) (has capability) :=
  .get_bind fun s t hst => by
    rw [hst.handle]
    exact .pure _

theorem reject_alike (rejection : Rejection) :
    Alike SameButLogout (reject rejection : Op α) (reject rejection) := .throw _

theorem unlessEmpty_alike (uids : UidSet) {op : Op Unit} (h : Alike SameButLogout op op) :
    Alike SameButLogout (unlessEmpty uids op) (unlessEmpty uids op) := .ite (.pure _) h

theorem transfer_alike (command : Command) (hcommand : command ≠ .logout) (uids : UidSet)
    (destination : String) (removes : Bool) :
    Alike SameButLogout (transfer command uids destination removes)
      (transfer command uids destination removes) := by
  refine .ite (.bind writable_alike ?rest) (.bind (selected_alike.map _) ?rest)
  intro source
  refine (request_alike command hcommand).bind fun _ => folders_alike.bind fun all => ?_
  refine .guarded (reject_alike _) ((folderNamed_alike source).bind fun f => ?_)
  exact .guarded (changeFolder_alike _ _) (changeFolder_alike _ _)

theorem selectFolder_alike (name : String) (readOnly : Bool) :
    Alike SameButLogout (selectFolder name readOnly) (selectFolder name readOnly) := by
  refine (request_alike _ ?_).bind fun _ => folders_alike.bind fun all => ?_
  · cases readOnly <;> nofun
  rcases all.find? name with _ | f
  · exact reject_alike _
  · exact .bind (.modify fun _ _ hst => ⟨by rw [hst.handle], hst.server⟩) fun _ => .pure _

theorem fetch_alike (uids : UidSet) (attributes : List FetchAttribute) :
    Alike SameButLogout (fetch uids attributes) (fetch uids attributes) := by
  refine selected_alike.bind fun open_ => .ite (.pure _) ?_
  exact (request_alike (.fetch uids attributes) nofun).bind fun _ => (folderNamed_alike _).bind fun _ => .pure _

theorem expunge_alike (uids : UidSet) : Alike SameButLogout (expunge uids) (expunge uids) := by
  refine unlessEmpty_alike uids (writable_alike.bind fun name => (has_alike .uidPlus).bind fun can => .ite ?_ ?_)
  · exact (request_alike (.expungeOnly uids) nofun).bind fun _ => changeFolder_alike _ _
  · exact (request_alike .expunge nofun).bind fun _ => changeFolder_alike _ _

theorem renameFolder_alike (old new : String) :
    Alike SameButLogout (renameFolder old new) (renameFolder old new) := by
  refine (request_alike (.rename old new) nofun).bind fun _ => folders_alike.bind fun all => ?_
  refine .guarded (reject_alike _) ?_
  rcases all.find? old with _ | f
  · exact reject_alike _
  · exact setFolders_alike _

end

/-- No call but the logout tells the stores apart. -/
theorem indifferent_sessions : Mirrors Session Session SameButLogout where
  capabilities _ _ hst := congrArg Handle.capabilities hst.handle
  listFolders := (request_alike (.list "" "*") nofun).bind fun _ => folders_alike.bind fun _ => .pure _
  selectFolder := selectFolder_alike
  search keys := selected_alike.bind fun _ => (request_alike (.search keys) nofun).bind fun _ =>
    (folderNamed_alike _).bind fun _ => .pure _
  fetch := fetch_alike
  moveMessages uids destination := unlessEmpty_alike uids <| (has_alike .move).bind fun _ =>
    .guarded (.throw _) (transfer_alike (.move uids destination) nofun uids destination true)
  copyMessages uids destination :=
    unlessEmpty_alike uids (transfer_alike (.copy uids destination) nofun uids destination false)
  deleteMessages uids := unlessEmpty_alike uids <| writable_alike.bind fun _ =>
    (request_alike (.addFlags uids [.deleted]) nofun).bind fun _ => changeFolder_alike _ _
  expunge := expunge_alike
  createFolder folder := (request_alike (.create folder) nofun).bind fun _ => folders_alike.bind fun _ =>
    .guarded (reject_alike _) (setFolders_alike _)
  renameFolder := renameFolder_alike
  deleteFolder folder := (request_alike (.delete folder) nofun).bind fun _ => folders_alike.bind fun _ =>
    .guarded (reject_alike _) (setFolders_alike _)

end Session

/-- Nor does what is done on a session of its own, whether the logout fails or not. -/
theorem indifferent_mirrors : ConnectorsMirror Server.SameButLogout Session.SameButLogout where
  sessions := Session.indifferent_sessions
  connected s t h := by
    have hconnect : ∀ s : Server, (Connector.connect s : Except SessionError Session × Server) = s.connect :=
      fun _ => rfl
    rw [hconnect, hconnect, Server.connect, Server.connect]
    by_cases hrefuses : t.refusesLogin = true
    · rw [if_pos (h.refusesLogin.trans hrefuses), if_pos hrefuses]
      exact .inl ⟨_, _, _, rfl, rfl, h⟩
    · rw [if_neg (h.refusesLogin ▸ hrefuses), if_neg hrefuses]
      refine .inr ⟨_, _, _, _, rfl, rfl, congrArg (Handle.mk · none) h.capabilities, ?_⟩
      exact { h with opened := congrArg (· + 1) h.opened }
  released s t h := by
    have hasked := (h.asked .logout).server
    show (Session.logout s).2.server.SameButLogout (Session.logout t).2.server
    rw [Session.logout_run, Session.logout_run]
    split <;> split <;> exact { hasked with }

end Mailroom.Mailstore
