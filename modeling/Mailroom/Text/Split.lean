/-! Text cut at separators. -/
namespace Mailroom.Split

/-- The pieces between separators. There is one piece more than there are separators. -/
def pieces (separator : Char) (cs : List Char) : List (List Char) :=
  let step := fun c (acc : List Char × List (List Char)) =>
    if c = separator then ([], acc.1 :: acc.2) else (c :: acc.1, acc.2)
  let cut := cs.foldr step ([], [])
  cut.1 :: cut.2

/-- What follows the last separator, if there is one. -/
def afterLast? (separator : Char) (cs : List Char) : Option (List Char) :=
  if cs.contains separator then some (cs.reverse.takeWhile (· != separator)).reverse else none

end Mailroom.Split
