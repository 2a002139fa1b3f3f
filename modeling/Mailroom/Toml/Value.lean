/-! Values of a TOML document.

No setting is a float or a moment, so of those only the kind is kept. -/
namespace Mailroom

/-- A value of a document. -/
inductive Toml
  | string (text : String)
  | integer (n : Int)
  | float
  | boolean (b : Bool)
  /-- A date, a time or both. -/
  | moment
  | array (items : List Toml)
  /-- Values under keys. -/
  | table (entries : List (String × Toml))
  deriving BEq, Repr, Inhabited

namespace Toml

abbrev Entries := List (String × Toml)

def find? (key : String) (entries : Entries) : Option Toml :=
  (entries.find? fun e => e.1 == key).map Prod.snd

end Toml

end Mailroom
