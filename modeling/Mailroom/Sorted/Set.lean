/-! Finite sets kept as ascending lists.

Message identifiers and folder names are handled as sets that are always listed in
ascending order. A `SortedSet` is the ascending list itself, so two sets with the same
members are equal (`ext`) and listing one needs no sorting. -/
namespace Mailroom

/-- A finite set, listed in strictly ascending order. -/
structure SortedSet (α : Type) [Ord α] where
  toList : List α
  ascending : toList.Pairwise fun a b => compare a b = .lt

namespace SortedSet
variable {α : Type} [Ord α]

/-- The ascending list with `x` put in its place, unless it is there already. -/
def place (x : α) : List α → List α
  | [] => [x]
  | y :: rest =>
    match compare x y with
    | .lt => x :: y :: rest
    | .eq => y :: rest
    | .gt => y :: place x rest

theorem mem_place [Std.TransOrd α] [Std.LawfulEqOrd α] {x a : α} {xs : List α} :
    a ∈ place x xs ↔ a = x ∨ a ∈ xs := by
  induction xs with
  | nil => simp [place]
  | cons y rest ih =>
    unfold place
    split
    · simp
    · next h =>
      have : x = y := Std.LawfulEqOrd.eq_of_compare h
      subst this
      simp
    · simp only [List.mem_cons, ih]
      grind

theorem place_ascending [Std.TransOrd α] [Std.LawfulEqOrd α] (x : α) {xs : List α}
    (h : xs.Pairwise fun a b => compare a b = .lt) :
    (place x xs).Pairwise fun a b => compare a b = .lt := by
  induction xs with
  | nil => simp [place]
  | cons y rest ih =>
    obtain ⟨hy, hrest⟩ := List.pairwise_cons.mp h
    unfold place
    split
    · next hlt =>
      refine List.pairwise_cons.mpr ⟨?_, h⟩
      intro a ha
      rcases List.mem_cons.mp ha with rfl | ha
      · exact hlt
      · exact Std.TransCmp.lt_trans hlt (hy a ha)
    · exact h
    · next hgt =>
      refine List.pairwise_cons.mpr ⟨?_, ih hrest⟩
      intro a ha
      rcases mem_place.mp ha with rfl | ha
      · exact Std.OrientedCmp.gt_iff_lt.mp hgt
      · exact hy a ha

def empty : SortedSet α := ⟨[], .nil⟩

instance : EmptyCollection (SortedSet α) := ⟨empty⟩
instance : Inhabited (SortedSet α) := ⟨empty⟩

instance : Membership α (SortedSet α) := ⟨fun s a => a ∈ s.toList⟩

instance [DecidableEq α] : DecidableEq (SortedSet α) := fun s t =>
  if h : s.toList = t.toList then
    .isTrue (by cases s; cases t; cases h; rfl)
  else
    .isFalse (fun e => h (congrArg toList e))

def insert [Std.TransOrd α] [Std.LawfulEqOrd α] (s : SortedSet α) (x : α) : SortedSet α :=
  ⟨place x s.toList, place_ascending x s.ascending⟩

/-- The members of a list, in any order and with repetitions. -/
def ofList [Std.TransOrd α] [Std.LawfulEqOrd α] (xs : List α) : SortedSet α :=
  xs.foldl insert empty

/-- The members of either set. -/
def union [Std.TransOrd α] [Std.LawfulEqOrd α] (s t : SortedSet α) : SortedSet α :=
  t.toList.foldl insert s

def filter (keep : α → Bool) (s : SortedSet α) : SortedSet α :=
  ⟨s.toList.filter keep, s.ascending.filter _⟩

def contains [BEq α] (s : SortedSet α) (x : α) : Bool := s.toList.contains x

/-- The members of both sets. -/
def inter [BEq α] (s t : SortedSet α) : SortedSet α := s.filter t.contains

def size (s : SortedSet α) : Nat := s.toList.length

def isEmpty (s : SortedSet α) : Bool := s.toList.isEmpty

theorem mem_def {s : SortedSet α} {a : α} : a ∈ s ↔ a ∈ s.toList := Iff.rfl

@[simp] theorem mem_toList {s : SortedSet α} {a : α} : a ∈ s.toList ↔ a ∈ s := Iff.rfl

@[simp] theorem not_mem_empty (a : α) : a ∉ (empty : SortedSet α) := by
  simp [mem_def, empty]

@[simp] theorem mem_insert [Std.TransOrd α] [Std.LawfulEqOrd α] {s : SortedSet α} {x a : α} :
    a ∈ s.insert x ↔ a = x ∨ a ∈ s := mem_place

theorem mem_foldl_insert [Std.TransOrd α] [Std.LawfulEqOrd α] {s : SortedSet α} {xs : List α}
    {a : α} : a ∈ xs.foldl insert s ↔ a ∈ s ∨ a ∈ xs := by
  induction xs generalizing s with
  | nil => simp
  | cons x rest ih =>
    rw [List.foldl_cons, ih, mem_insert, List.mem_cons]
    grind

@[simp] theorem mem_ofList [Std.TransOrd α] [Std.LawfulEqOrd α] {xs : List α} {a : α} :
    a ∈ ofList xs ↔ a ∈ xs := by
  simp [ofList, mem_foldl_insert]

@[simp] theorem mem_union [Std.TransOrd α] [Std.LawfulEqOrd α] {s t : SortedSet α} {a : α} :
    a ∈ s.union t ↔ a ∈ s ∨ a ∈ t := by
  simp [union, mem_foldl_insert]

@[simp] theorem mem_filter {s : SortedSet α} {keep : α → Bool} {a : α} :
    a ∈ s.filter keep ↔ a ∈ s ∧ keep a = true :=
  List.mem_filter

@[simp] theorem contains_iff [BEq α] [LawfulBEq α] {s : SortedSet α} {a : α} :
    s.contains a = true ↔ a ∈ s :=
  List.contains_iff_mem

@[simp] theorem mem_inter [BEq α] [LawfulBEq α] {s t : SortedSet α} {a : α} :
    a ∈ s.inter t ↔ a ∈ s ∧ a ∈ t := by
  simp [inter]

@[simp] theorem isEmpty_iff {s : SortedSet α} : s.isEmpty = true ↔ s = empty := by
  cases s with
  | mk xs h => cases xs <;> simp [isEmpty, empty]

/-- Sets with the same members are equal. -/
theorem ext [Std.TransOrd α] {s t : SortedSet α} (h : ∀ a, a ∈ s ↔ a ∈ t) : s = t := by
  have nodup : ∀ u : SortedSet α, u.toList.Nodup := fun u =>
    u.ascending.imp fun {a b} hab e => by subst e; simp at hab
  have perm : s.toList.Perm t.toList :=
    (List.perm_ext_iff_of_nodup (nodup s) (nodup t)).mpr h
  have eq : s.toList = t.toList := perm.eq_of_pairwise
    (fun a b _ _ (hab : compare a b = .lt) hba => (Std.OrientedCmp.not_lt_of_lt hab hba).elim)
    s.ascending t.ascending
  cases s; cases t; cases eq; rfl

end SortedSet

end Mailroom
