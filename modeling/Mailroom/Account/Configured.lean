import Mailroom.Account
import Mailroom.Config.Access

/-! Accounts as a configuration describes them. -/
namespace Mailroom.Account

/-- The account of a configuration that goes by a name. `dial` makes a connector of what it
takes to reach the server. -/
def ofConfig {κ : Type} (dial : Access → κ) (home : Option String) (config : Config)
    (name : String) : Except Failure (Account κ) := do
  let settings ← config.account name
  let access ← Access.ofConfig name settings
  pure
    { name
      connector := dial access
      inbox := settings.inbox
      ruleFiles := settings.ruleFiles home }

end Mailroom.Account
