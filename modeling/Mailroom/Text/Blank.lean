/-! White space in the sense of Unicode.

The blank characters are those with the `White_Space` property, which is more than the
ASCII spaces: the no-break space and the ideographic space are among them. -/
namespace Mailroom.Blank

def isBlank (c : Char) : Bool :=
  let n := c.toNat
  (9 ≤ n && n ≤ 13) || n == 0x20 || n == 0x85 || n == 0xa0 || n == 0x1680 ||
    (0x2000 ≤ n && n ≤ 0x200a) || n == 0x2028 || n == 0x2029 || n == 0x202f || n == 0x205f ||
    n == 0x3000

/-- The characters from the first that is not blank on. -/
def trimStart (cs : List Char) : List Char := cs.dropWhile isBlank

/-- The characters up to the last that is not blank. -/
def trimEnd (cs : List Char) : List Char := (cs.reverse.dropWhile isBlank).reverse

def trim (s : String) : String := String.ofList (trimEnd (trimStart s.toList))

def isBlankText (s : String) : Bool := s.toList.all isBlank

/-- A word in front of the words that follow it, left out when it is empty. -/
def flush (word : List Char) (words : List (List Char)) : List (List Char) :=
  if word.isEmpty then words else word :: words

/-- The maximal runs of characters that are not blank, in order. -/
def words (s : String) : List String :=
  let step := fun c (acc : List Char × List (List Char)) =>
    if isBlank c then ([], flush acc.1 acc.2) else (c :: acc.1, acc.2)
  let split := s.toList.foldr step ([], [])
  (flush split.1 split.2).map String.ofList

end Mailroom.Blank
