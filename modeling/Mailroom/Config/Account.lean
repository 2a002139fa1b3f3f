import Mailroom.Config.Security
import Mailroom.Failure
import Mailroom.Text.Blank
import Mailroom.Text.Path

/-! The settings of one account. -/
namespace Mailroom

/-- How to reach an account, and what to do with its mail. -/
structure AccountConfig where
  host : String
  /-- The port, if it is not the usual one. -/
  port : Option Nat := none
  security : Security := .tls
  username : String
  password : Option String := none
  /-- The folder that rules look at. -/
  inbox : String := "INBOX"
  /-- The files of rules, in the order in which they apply. -/
  rules : List String := []
  deriving DecidableEq, Repr

namespace AccountConfig

def effectivePort (a : AccountConfig) : Nat := a.port.getD a.security.defaultPort

def ruleFiles (a : AccountConfig) (home : Option String) : List String :=
  a.rules.map (Path.expandHome home)

def problemIf (condition : Bool) (p : SettingProblem) : List SettingProblem :=
  if condition then [p] else []

/-- Everything that is wrong with the settings. -/
def problems (a : AccountConfig) : List SettingProblem :=
  problemIf (Blank.isBlankText a.host) .emptyHost ++ problemIf (a.port == some 0) .invalidPort ++
    problemIf (Blank.isBlankText a.username) .emptyUsername ++
    problemIf (a.password == some "") .emptyPassword ++
    problemIf (Blank.isBlankText a.inbox) .emptyInbox

end AccountConfig

end Mailroom
