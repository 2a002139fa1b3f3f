import Mailroom.Search.Problem
import Mailroom.Session.Error

/-! What an operation on an account can fail with. -/
namespace Mailroom

/-- A setting that cannot be right. -/
inductive SettingProblem
  | emptyHost
  | invalidPort
  | emptyUsername
  | emptyPassword
  | emptyInbox
  deriving DecidableEq, Repr

namespace SettingProblem

/-- The problem without the setting it is about. -/
def message : SettingProblem → String
  | emptyHost => "IMAP server is required"
  | invalidPort => "IMAP port must be 1-65535"
  | emptyUsername => "IMAP username is required"
  | emptyPassword => "IMAP password must not be empty"
  | emptyInbox => "inbox folder name must not be empty"

def field : SettingProblem → String
  | emptyHost => "host"
  | invalidPort => "port"
  | emptyUsername => "username"
  | emptyPassword => "password"
  | emptyInbox => "inbox"

def text (p : SettingProblem) : String := p.message ++ " (" ++ p.field ++ ")"

end SettingProblem

/-- What can be wrong with a configuration or a file of rules. -/
inductive ConfigProblem
  | badSettings (account : String) (problems : List SettingProblem)
  | noPassword (account : String)
  /-- The name of an account differs from another's at most in letter case. -/
  | definedTwice (account : String)
  | emptyDestination (rule : String)
  | noAction (rule : String)
  deriving DecidableEq, Repr

def ConfigProblem.message : ConfigProblem → String
  | badSettings account problems =>
    "account " ++ account ++ ": " ++ "; ".intercalate (problems.map SettingProblem.text)
  | noPassword account =>
    "account " ++ account ++ ": no password configured or stored in the keyring"
  | definedTwice account => "account " ++ account ++ " is defined twice"
  | emptyDestination rule => "rule " ++ rule ++ ": empty move destination"
  | noAction rule => "rule " ++ rule ++ " has no action"

/-- Why a file cannot be read. -/
inductive FileProblem
  | notFound
  /-- The file holds no text. -/
  | notText
  deriving DecidableEq, Repr

def FileProblem.message : FileProblem → String
  | notFound => "No such file or directory (os error 2)"
  | notText => "stream did not contain valid UTF-8"

/-- A change that was being made. -/
inductive Mutation
  | moveTo (folder : String)
  | create (folder : String)
  | delete
  | expunge
  | rename (old new : String)
  | deleteFolder (folder : String)
  deriving DecidableEq, Repr

def Mutation.text : Mutation → String
  | moveTo folder => "move to " ++ folder
  | create folder => "create " ++ folder
  | delete => "delete"
  | expunge => "expunge"
  | rename old new => "rename " ++ old ++ " to " ++ new
  | deleteFolder folder => "delete folder " ++ folder

/-- What an operation fails with. -/
inductive Failure
  | config (problem : ConfigProblem)
  | unknownAccount (name : String)
  /-- A file could not be read. -/
  | io (path : String) (problem : FileProblem)
  /-- A file is not in the form that was expected. -/
  | malformed (path : String)
  | specification (problem : SpecProblem)
  | connection (account : String) (source : SessionError)
  | authentication (account : String) (source : SessionError)
  | queryFailed (folder : String) (source : SessionError)
  | mutationFailed (mutation : Mutation) (source : SessionError)
  deriving DecidableEq, Repr

namespace Failure

/-- What a file has to be. -/
def formProblem : String := "not valid TOML"

def message : Failure → String
  | config problem => "Configuration error: " ++ problem.message
  | unknownAccount name => "Unknown account: " ++ name
  | io path problem => "Cannot read " ++ path ++ ": " ++ problem.message
  | malformed path => "Malformed " ++ path ++ ": " ++ formProblem
  | specification problem => "Invalid search specification: " ++ problem.message
  | connection account source => "Cannot connect to account " ++ account ++ ": " ++ source.message
  | authentication account source =>
    "Authentication failed for account " ++ account ++ ": " ++ source.message
  | queryFailed folder source => "Query on " ++ folder ++ " failed: " ++ source.message
  | mutationFailed mutation source => mutation.text ++ " failed: " ++ source.message

/-- Whether the failure lies in the local configuration and not with the server. -/
def isConfiguration : Failure → Bool
  | config _ => true
  | unknownAccount _ => true
  | io .. => true
  | malformed _ => true
  | _ => false

/-- What happened in the session, if the failure came from there. -/
def source? : Failure → Option SessionError
  | connection _ source => some source
  | authentication _ source => some source
  | queryFailed _ source => some source
  | mutationFailed _ source => some source
  | _ => none

/-- The failure and what lies behind it, step by step. -/
def chain (f : Failure) : List String :=
  let behind := match f with
    | io _ problem => [problem.message]
    | malformed _ => [formProblem]
    | f =>
      match f.source? with
      | some source => source.message :: source.cause?.toList
      | none => []
  f.message :: behind

end Failure

end Mailroom
