import Mailroom.Text.Casing.Table

/-! Small letters, for every script.

Addresses, account names and file names are compared in small letters. A capital sigma that
ends a word becomes a final sigma, and `İ` becomes two characters; every other character
has one small letter or none. -/
namespace Mailroom.Casing

/-- Whether `n` lies in one of the ranges. -/
def within (ranges : List (Nat × Nat)) (n : Nat) : Bool :=
  ranges.any fun range => range.1 ≤ n && n ≤ range.2

/-- The small letter of a character that has one, and otherwise the character. -/
def lowerChar (c : Char) : Char :=
  let n := c.toNat
  if n < 128 then c.toLower
  else
    match lowerRuns.find? fun (first, last, step, _) => first ≤ n && n ≤ last && (n - first) % step == 0 with
    | some (first, _, _, image) => Char.ofNat (image + (n - first))
    | none => c

/-- Whether the nearest character that counts is a letter with case. -/
def meetsLetter (cs : List Char) : Bool :=
  match cs.dropWhile fun c => within ignored c.toNat with
  | [] => false
  | c :: _ => within letters c.toNat

/-- The small letters of the characters after `before` (latest first). -/
def lowerFrom (before : List Char) : List Char → List Char
  | [] => []
  | c :: rest =>
    let small :=
      if c = 'Σ' then [if meetsLetter before && !meetsLetter rest then 'ς' else 'σ']
      else if c = 'İ' then ['i', '\u0307']
      else [lowerChar c]
    small ++ lowerFrom (c :: before) rest

/-- The text in small letters. -/
def lower (s : String) : String := String.ofList (lowerFrom [] s.toList)

end Mailroom.Casing
