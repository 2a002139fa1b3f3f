import Mailroom.Sorted.Set
import Mailroom.Text.Decimal

/-! Message identifiers and sets of them.

Within a folder every message has an identifier, a positive number of 32 bits. A set of
identifiers travels as ranges: `1:3,7,9:10`. -/
namespace Mailroom

/-- The identifier of a message. -/
structure Uid where
  value : Nat
  positive : 0 < value
  bounded : value < UInt32.size
  deriving DecidableEq

namespace Uid

/-- The identifier with the given number, if there is one. -/
def ofNat? (n : Nat) : Option Uid :=
  if h : 0 < n ∧ n < UInt32.size then some ⟨n, h.1, h.2⟩ else none

def least : Uid := ⟨1, by decide, by decide⟩

instance : Inhabited Uid := ⟨least⟩

instance : Ord Uid := ⟨fun a b => compare a.value b.value⟩

theorem compare_def (a b : Uid) : compare a b = compare a.value b.value := rfl

theorem ext_value {a b : Uid} (h : a.value = b.value) : a = b := by
  cases a; cases b; cases h; rfl

instance : Std.OrientedOrd Uid where
  eq_swap {a b} := by
    rw [compare_def, compare_def]
    exact Std.OrientedCmp.eq_swap

instance : Std.TransOrd Uid where
  isLE_trans {a b c} h₁ h₂ := by
    rw [compare_def] at *
    exact Std.TransCmp.isLE_trans h₁ h₂

instance : Std.LawfulEqOrd Uid where
  compare_self {a} := by
    rw [compare_def]
    exact Std.ReflCmp.compare_self
  eq_of_compare {a b} h := by
    rw [compare_def] at h
    exact ext_value (Std.LawfulEqOrd.eq_of_compare h)

def text (u : Uid) : String := Decimal.text u.value

end Uid

abbrev UidSet := SortedSet Uid

namespace UidSet

def values (uids : UidSet) : List Nat := uids.toList.map Uid.value

/-- The ranges of ascending numbers that go on from `first` to `last`. -/
def rangesFrom (first last : Nat) : List Nat → List (Nat × Nat)
  | [] => [(first, last)]
  | n :: rest =>
    if n = last + 1 then rangesFrom first n rest else (first, last) :: rangesFrom n n rest

/-- The fewest ranges that cover ascending numbers. -/
def ranges : List Nat → List (Nat × Nat)
  | [] => []
  | n :: rest => rangesFrom n n rest

def rangeText (range : Nat × Nat) : String :=
  if range.1 = range.2 then Decimal.text range.1
  else Decimal.text range.1 ++ ":" ++ Decimal.text range.2

def text (uids : UidSet) : String := ",".intercalate ((ranges uids.values).map rangeText)

end UidSet

end Mailroom
