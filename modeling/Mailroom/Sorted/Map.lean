import Mailroom.Sorted.Set

/-! Finite maps kept as lists in ascending key order.

Folders by name, messages by identifier and accounts by name are looked up by key and
always listed in key order. A `SortedMap` is that list, so two maps with the same look-ups
are equal (`ext`), and what `insert` and `erase` do is said by their look-ups
(`find?_insert`, `find?_erase`). -/
namespace Mailroom

/-- A finite map, its entries in strictly ascending key order. -/
structure SortedMap (κ ν : Type) [Ord κ] where
  entries : List (κ × ν)
  ascending : entries.Pairwise fun a b => compare a.1 b.1 = .lt

namespace SortedMap
variable {κ ν : Type} [Ord κ]

/-- The value listed under `k`. -/
def look (k : κ) : List (κ × ν) → Option ν
  | [] => none
  | (k', v) :: rest => if compare k k' = .eq then some v else look k rest

/-- The entries with `v` listed under `k`, in place of what was there. -/
def place (k : κ) (v : ν) : List (κ × ν) → List (κ × ν)
  | [] => [(k, v)]
  | (k', v') :: rest =>
    match compare k k' with
    | .lt => (k, v) :: (k', v') :: rest
    | .eq => (k, v) :: rest
    | .gt => (k', v') :: place k v rest

/-- The entries without the one under `k`. -/
def drop (k : κ) (entries : List (κ × ν)) : List (κ × ν) :=
  entries.filter fun e => compare k e.1 != .eq

theorem mem_place {k : κ} {v : ν} {e : κ × ν} {entries : List (κ × ν)} (h : e ∈ place k v entries) :
    e = (k, v) ∨ e ∈ entries := by
  induction entries with
  | nil => simpa [place] using h
  | cons e' rest ih =>
    obtain ⟨k', v'⟩ := e'
    unfold place at h
    split at h <;> grind

theorem place_ascending [Std.TransOrd κ] [Std.LawfulEqOrd κ] (k : κ) (v : ν) {entries : List (κ × ν)}
    (h : entries.Pairwise fun a b => compare a.1 b.1 = .lt) :
    (place k v entries).Pairwise fun a b => compare a.1 b.1 = .lt := by
  induction entries with
  | nil => simp [place]
  | cons e rest ih =>
    obtain ⟨k', v'⟩ := e
    obtain ⟨hk, hrest⟩ := List.pairwise_cons.mp h
    unfold place
    split
    · next hlt =>
      refine List.pairwise_cons.mpr ⟨?_, h⟩
      intro a ha
      rcases List.mem_cons.mp ha with rfl | ha
      · exact hlt
      · exact Std.TransCmp.lt_trans hlt (hk a ha)
    · next heq =>
      have : k = k' := Std.LawfulEqOrd.eq_of_compare heq
      subst this
      exact List.pairwise_cons.mpr ⟨hk, hrest⟩
    · next hgt =>
      refine List.pairwise_cons.mpr ⟨?_, ih hrest⟩
      intro a ha
      rcases mem_place ha with rfl | ha
      · exact Std.OrientedCmp.gt_iff_lt.mp hgt
      · exact hk a ha

def empty : SortedMap κ ν := ⟨[], .nil⟩

instance : EmptyCollection (SortedMap κ ν) := ⟨empty⟩
instance : Inhabited (SortedMap κ ν) := ⟨empty⟩

instance [DecidableEq κ] [DecidableEq ν] : DecidableEq (SortedMap κ ν) := fun s t =>
  if h : s.entries = t.entries then
    .isTrue (by cases s; cases t; cases h; rfl)
  else
    .isFalse (fun e => h (congrArg entries e))

def find? (m : SortedMap κ ν) (k : κ) : Option ν := look k m.entries

def contains (m : SortedMap κ ν) (k : κ) : Bool := (m.find? k).isSome

/-- The map with `v` under `k`, in place of what was there. -/
def insert [Std.TransOrd κ] [Std.LawfulEqOrd κ] (m : SortedMap κ ν) (k : κ) (v : ν) : SortedMap κ ν :=
  ⟨place k v m.entries, place_ascending k v m.ascending⟩

def erase (m : SortedMap κ ν) (k : κ) : SortedMap κ ν :=
  ⟨drop k m.entries, m.ascending.filter _⟩

def filter (keep : κ → ν → Bool) (m : SortedMap κ ν) : SortedMap κ ν :=
  ⟨m.entries.filter fun e => keep e.1 e.2, m.ascending.filter _⟩

/-- The keys, ascending. -/
def keys (m : SortedMap κ ν) : List κ := m.entries.map (·.1)

def keySet (m : SortedMap κ ν) : SortedSet κ :=
  ⟨m.keys, List.pairwise_map.mpr m.ascending⟩

def values (m : SortedMap κ ν) : List ν := m.entries.map (·.2)

def size (m : SortedMap κ ν) : Nat := m.entries.length

theorem look_place_self [Std.TransOrd κ] (k : κ) (v : ν) (entries : List (κ × ν)) :
    look k (place k v entries) = some v := by
  induction entries with
  | nil => simp [place, look]
  | cons e rest ih =>
    obtain ⟨k', v'⟩ := e
    unfold place
    split <;> simp_all [look]

theorem look_place_ne [Std.TransOrd κ] [Std.LawfulEqOrd κ] {k k' : κ} (v : ν) (h : k' ≠ k)
    (entries : List (κ × ν)) : look k' (place k v entries) = look k' entries := by
  have hne : compare k' k ≠ .eq := fun e => h (Std.LawfulEqOrd.eq_of_compare e)
  induction entries with
  | nil => simp [place, look, hne]
  | cons e rest ih =>
    obtain ⟨k'', v''⟩ := e
    unfold place
    split
    · simp [look, hne]
    · next heq =>
      have : k = k'' := Std.LawfulEqOrd.eq_of_compare heq
      subst this
      simp [look, hne]
    · simp [look, ih]

theorem find?_insert [Std.TransOrd κ] [Std.LawfulEqOrd κ] [DecidableEq κ] (m : SortedMap κ ν)
    (k k' : κ) (v : ν) : (m.insert k v).find? k' = if k' = k then some v else m.find? k' := by
  by_cases h : k' = k
  · subst h
    simpa [find?, insert] using look_place_self k' v m.entries
  · simpa [find?, insert, h] using look_place_ne v h m.entries

theorem find?_erase [Std.TransOrd κ] [Std.LawfulEqOrd κ] [DecidableEq κ] (m : SortedMap κ ν)
    (k k' : κ) : (m.erase k).find? k' = if k' = k then none else m.find? k' := by
  simp only [find?, erase, drop]
  induction m.entries with
  | nil => simp [look]
  | cons e rest ih =>
    obtain ⟨k'', v''⟩ := e
    by_cases hk : compare k k'' = .eq
    · have : k = k'' := Std.LawfulEqOrd.eq_of_compare hk
      subst this
      simp only [List.filter_cons, bne_iff_ne, ne_eq, hk, not_true,
        if_false, ih, look]
      by_cases h : k' = k
      · simp [h]
      · have hne : compare k' k ≠ .eq := fun e => h (Std.LawfulEqOrd.eq_of_compare e)
        simp [h, hne]
    · have hne : (compare k k'' != .eq) = true := by simpa using hk
      simp only [List.filter_cons, hne, if_true, look, ih]
      by_cases h : k' = k
      · subst h
        simp [hk]
      · simp [h]

theorem look_eq_some_iff [Std.TransOrd κ] [Std.LawfulEqOrd κ] {k : κ} {v : ν}
    {entries : List (κ × ν)} (h : entries.Pairwise fun a b => compare a.1 b.1 = .lt) :
    look k entries = some v ↔ (k, v) ∈ entries := by
  induction entries with
  | nil => simp [look]
  | cons e rest ih =>
    obtain ⟨k', v'⟩ := e
    obtain ⟨hk, hrest⟩ := List.pairwise_cons.mp h
    unfold look
    by_cases heq : compare k k' = .eq
    · have : k = k' := Std.LawfulEqOrd.eq_of_compare heq
      subst this
      simp only [heq, if_true, Option.some.injEq, List.mem_cons, Prod.mk.injEq, true_and]
      constructor
      · exact fun e => .inl e.symm
      · rintro (e | hmem)
        · exact e.symm
        · have := hk _ hmem
          simp at this
    · have : k ≠ k' := fun e => heq (by subst e; simp)
      simp [heq, ih hrest, this]

/-- Looking a key up finds exactly what is listed under it. -/
theorem find?_eq_some_iff [Std.TransOrd κ] [Std.LawfulEqOrd κ] {m : SortedMap κ ν} {k : κ} {v : ν} :
    m.find? k = some v ↔ (k, v) ∈ m.entries :=
  look_eq_some_iff m.ascending

/-- Maps with the same look-ups are equal. -/
theorem ext [Std.TransOrd κ] [Std.LawfulEqOrd κ] {m n : SortedMap κ ν}
    (h : ∀ k, m.find? k = n.find? k) : m = n := by
  have nodup : ∀ u : SortedMap κ ν, u.entries.Nodup := fun u =>
    u.ascending.imp fun {a b} hab e => by subst e; simp at hab
  have perm : m.entries.Perm n.entries :=
    (List.perm_ext_iff_of_nodup (nodup m) (nodup n)).mpr fun ⟨k, v⟩ => by
      rw [← find?_eq_some_iff, ← find?_eq_some_iff, h]
  have eq : m.entries = n.entries :=
    perm.eq_of_pairwise
      (fun a b _ _ (hab : compare a.1 b.1 = .lt) hba => (Std.OrientedCmp.not_lt_of_lt hab hba).elim)
      m.ascending n.ascending
  cases m; cases n; cases eq; rfl

end SortedMap

end Mailroom
