/-! Base64 in the standard alphabet.

Writing leaves the padding out. Reading is strict: the text comes in whole groups of four,
padded at the end only, and the bits that a padded group does not need are zero. -/
namespace Mailroom.Base64

/-- The sign for a number below 64. -/
def sign (n : Nat) : Char :=
  if n < 26 then Char.ofNat (65 + n)
  else if n < 52 then Char.ofNat (71 + n)
  else if n < 62 then Char.ofNat (n - 4)
  else if n = 62 then '+'
  else '/'

/-- The number a sign stands for. -/
def value? (c : Char) : Option Nat :=
  if 'A' ≤ c ∧ c ≤ 'Z' then some (c.toNat - 65)
  else if 'a' ≤ c ∧ c ≤ 'z' then some (c.toNat - 71)
  else if '0' ≤ c ∧ c ≤ '9' then some (c.toNat + 4)
  else if c = '+' then some 62
  else if c = '/' then some 63
  else none

/-- The signs that spell the bytes, without padding. -/
def encode : List UInt8 → List Char
  | [] => []
  | [a] => [sign (a.toNat / 4), sign (a.toNat % 4 * 16)]
  | [a, b] =>
    [sign (a.toNat / 4), sign (a.toNat % 4 * 16 + b.toNat / 16), sign (b.toNat % 16 * 4)]
  | a :: b :: c :: rest =>
    sign (a.toNat / 4) :: sign (a.toNat % 4 * 16 + b.toNat / 16) ::
      sign (b.toNat % 16 * 4 + c.toNat / 64) :: sign (c.toNat % 64) :: encode rest

def byte (n : Nat) : UInt8 := UInt8.ofNat n

/-- The bytes of a last group of two signs. -/
def pair? (p q : Nat) : Option (List UInt8) :=
  if q % 16 = 0 then some [byte (p * 4 + q / 16)] else none

/-- The bytes of a last group of three signs. -/
def triple? (p q r : Nat) : Option (List UInt8) :=
  if r % 4 = 0 then some [byte (p * 4 + q / 16), byte (q % 16 * 16 + r / 4)] else none

/-- The bytes that padded signs spell. -/
def decode : List Char → Option (List UInt8)
  | [] => some []
  | a :: b :: c :: d :: rest => do
    let p ← value? a
    let q ← value? b
    if c = '=' then
      if d = '=' ∧ rest = [] then pair? p q else none
    else
      let r ← value? c
      if d = '=' then
        if rest = [] then triple? p q r else none
      else
        let s ← value? d
        let tail ← decode rest
        some (byte (p * 4 + q / 16) :: byte (q % 16 * 16 + r / 4) :: byte (r % 4 * 64 + s) :: tail)
  | _ => none

end Mailroom.Base64
