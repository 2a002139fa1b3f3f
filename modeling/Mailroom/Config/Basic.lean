import Mailroom.Config.Account
import Mailroom.Config.Files
import Mailroom.Sorted.Map
import Mailroom.Text.Ascii
import Mailroom.Text.Casing
import Mailroom.Toml.Decode

/-! The configuration: accounts by name.

Names of accounts are kept and looked up in small letters. -/
namespace Mailroom

/-- The accounts there are. -/
structure Config where
  accounts : SortedMap String AccountConfig
  deriving DecidableEq

/-- The protection that a value chooses. -/
def Security.ofToml? (v : Toml) : Option Security := (Toml.choice? v).bind read?

namespace AccountConfig

/-- The settings in a table. -/
def ofEntries? (entries : Toml.Entries) : Option AccountConfig := do
  let host ← Toml.required? Toml.text? entries "host"
  let port ← Toml.optional? Toml.port? entries "port"
  let security ← Toml.withDefault? Security.ofToml? .tls entries "security"
  let username ← Toml.required? Toml.text? entries "username"
  let password ← Toml.optional? Toml.text? entries "password"
  let inbox ← Toml.withDefault? Toml.text? "INBOX" entries "inbox"
  let rules ← Toml.withDefault? Toml.texts? (.many []) entries "rules"
  pure { host, port, security, username, password, inbox, rules := rules.toList }

/-- The keys of the settings, in the order in which an array gives them. -/
def keys : List String := ["host", "port", "security", "username", "password", "inbox", "rules"]

/-- The settings in a table, or in an array that gives them in order. -/
def ofToml? : Toml → Option AccountConfig
  | .array items => ofEntries? (keys.zip items)
  | v => v.settings?.bind ofEntries?

end AccountConfig

namespace Config

/-- The accounts in a table, by the names as they are written. -/
def written? (entries : Toml.Entries) : Option (SortedMap String AccountConfig) := do
  let accounts ← entries.mapM fun (name, v) => (AccountConfig.ofToml? v).map fun a => (name, a)
  pure (accounts.foldl (fun m e => m.insert e.1 e.2) .empty)

/-- The accounts that a document describes, by the names as they are written. -/
def documentAccounts? (document : String) : Option (SortedMap String AccountConfig) := do
  let entries ← Toml.read? document
  Toml.withDefault? (fun v => v.entries?.bind written?) .empty entries "accounts"

/-- The accounts with one more, under its name in small letters. -/
def add (accounts : SortedMap String AccountConfig) (entry : String × AccountConfig) :
    Except Failure (SortedMap String AccountConfig) :=
  let key := Casing.lower entry.1
  if accounts.contains key then throw (.config (.definedTwice entry.1))
  else pure (accounts.insert key entry.2)

/-- The accounts under their names in small letters, which have to differ. -/
def ofWritten (written : SortedMap String AccountConfig) : Except Failure Config := do
  pure ⟨← written.entries.foldlM add .empty⟩

/-- The configuration that a document describes. `source` is the name of its file. -/
def parse (document : String) (source : String) : Except Failure Config :=
  match documentAccounts? document with
  | none => throw (.malformed source)
  | some written => ofWritten written

def load (files : Files) (path : String) : Except Failure Config := do
  parse (← files.read path) path

/-- The settings of the account with a name, in any letter case. -/
def account (config : Config) (name : String) : Except Failure AccountConfig :=
  match config.accounts.find? (Casing.lower name) with
  | some a => pure a
  | none => throw (.unknownAccount name)

/-- The word that selects every account. -/
def allAccounts : String := "all"

/-- The names of the accounts that a word selects. -/
def select (config : Config) (selector : String) : List String :=
  if Ascii.same selector allAccounts then config.accounts.keys else [Casing.lower selector]

/-- Where the configuration is kept, unless the environment says otherwise. -/
def defaultPath (chosen : Option String) (home : Option String) : Option String :=
  match chosen, home with
  | some path, _ => some path
  | none, some home => some (Path.join home ".config/mailsift/config.toml")
  | none, none => none

end Config

end Mailroom
