import Mailroom.Sorted.Set

/-! How the findings of several predicates come together. -/
namespace Mailroom

/-- Whether every predicate has to hold, or one. -/
inductive MergeMode
  | and
  | or
  deriving DecidableEq, Repr

namespace MergeMode

def text : MergeMode → String
  | and => "and"
  | or => "or"

/-- What was found before and what is found now, taken together. -/
def merge {α : Type} [Ord α] [Std.TransOrd α] [Std.LawfulEqOrd α] [BEq α] (mode : MergeMode)
    (found now : SortedSet α) : SortedSet α :=
  match mode with
  | and => found.inter now
  | or => found.union now

end MergeMode

end Mailroom
