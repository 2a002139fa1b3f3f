/-! Letter case in ASCII.

Protocol words are compared without regard to the case of the letters `a` to `z`; every
other character stands for itself. -/
namespace Mailroom.Ascii

def upper (s : String) : String := String.ofList (s.toList.map Char.toUpper)

def lower (s : String) : String := String.ofList (s.toList.map Char.toLower)

/-- Whether two texts differ at most in the case of ASCII letters. -/
def same (s t : String) : Bool := upper s == upper t

def only (s : String) : Bool := s.toList.all fun c => c.toNat < 128

def startsWith (start s : String) : Bool := start.toList.isPrefixOf s.toList

/-- What follows `start` in `s`, if `s` begins with it. -/
def after? (start s : String) : Option String :=
  if startsWith start s then some (String.ofList (s.toList.drop start.toList.length)) else none

end Mailroom.Ascii
