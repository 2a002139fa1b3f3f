import Mailroom.Config.Access
import Mailroom.Session.Imap

/-! Servers whose side of every conversation is known beforehand.

A script is what a server sends over one connection, in the chunks in which it arrives. Each
connection uses up one script; when there are no more, the server closes at once. -/
namespace Mailroom

/-- A server that follows scripts. -/
structure ScriptedServer where
  access : Access
  /-- The scripts of the connections to come. -/
  scripts : List (List Bytes) := []
  /-- What was written to it over all connections that are closed, latest first. -/
  written : List Bytes := []

/-- A session with a server that follows scripts. -/
structure ScriptedServer.Session where
  server : ScriptedServer
  session : ImapSession

namespace ScriptedServer

def sent (s : ScriptedServer) : Bytes := s.written.reverse.flatten

def connect (s : ScriptedServer) : Except SessionError Session × ScriptedServer :=
  match s.access.refusal? with
  | some e => (.error e, s)
  | none =>
    let (incoming, ending) := Frame.ofChunks (s.scripts.head?.getD [])
    let s := { s with scripts := s.scripts.tail }
    match ImapSession.start s.access.username s.access.password incoming ending with
    | (.error e, written) => (.error e, { s with written := written ++ s.written })
    | (.ok session, _) => (.ok ⟨s, session⟩, s)

/-- The server once a session is over. -/
def release (s : Session) : ScriptedServer :=
  { s.server with written := s.session.connection.written ++ s.server.written }

def onSession {α : Type} (op : SessionM ImapSession α) : SessionM Session α := fun s =>
  let (result, session) := op s.session
  (result, { s with session })

instance : MailSession Session where
  capabilities s := MailSession.capabilities s.session
  listFolders := onSession MailSession.listFolders
  selectFolder folder readOnly := onSession (MailSession.selectFolder folder readOnly)
  search keys := onSession (MailSession.search keys)
  fetch uids attributes := onSession (MailSession.fetch uids attributes)
  moveMessages uids folder := onSession (MailSession.moveMessages uids folder)
  copyMessages uids folder := onSession (MailSession.copyMessages uids folder)
  deleteMessages uids := onSession (MailSession.deleteMessages uids)
  expunge uids := onSession (MailSession.expunge uids)
  createFolder folder := onSession (MailSession.createFolder folder)
  renameFolder old new := onSession (MailSession.renameFolder old new)
  deleteFolder folder := onSession (MailSession.deleteFolder folder)
  logout := onSession MailSession.logout

instance : Connector ScriptedServer Session where
  connect := connect
  release := release

end ScriptedServer

end Mailroom
