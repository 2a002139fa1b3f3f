import Mailroom.Sorted.Map

/-! Sorted maps through their look-ups, and through their entries.

What a filter leaves is said by the look-ups (`find?_filter`), which keys there are by the
set of keys (`mem_keySet`), and where the entry of a key above all others goes by the list
of entries (`entries_insert_last`). -/
namespace Mailroom

instance {α : Type} [Ord α] [DecidableEq α] (s : SortedSet α) (a : α) : Decidable (a ∈ s) :=
  inferInstanceAs (Decidable (a ∈ s.toList))

theorem SortedSet.exists_mem {α : Type} [Ord α] {s : SortedSet α} (h : s.isEmpty = false) : ∃ a, a ∈ s :=
  List.exists_mem_of_ne_nil s.toList (by simpa [SortedSet.isEmpty] using h)

namespace SortedMap
variable {κ ν : Type} [Ord κ]

@[simp] theorem find?_empty (k : κ) : (empty : SortedMap κ ν).find? k = none := rfl

theorem contains_iff {m : SortedMap κ ν} {k : κ} :
    m.contains k = true ↔ ∃ v, m.find? k = some v := by
  rw [contains, Option.isSome_iff_exists]

variable [Std.TransOrd κ] [Std.LawfulEqOrd κ]

theorem find?_filter (m : SortedMap κ ν) (keep : κ → ν → Bool) (k : κ) :
    (m.filter keep).find? k = (m.find? k).filter (keep k) := by
  apply Option.ext
  intro v
  rw [find?_eq_some_iff, Option.filter_eq_some_iff, find?_eq_some_iff]
  exact List.mem_filter

theorem mem_keySet {m : SortedMap κ ν} {k : κ} : k ∈ m.keySet ↔ ∃ v, m.find? k = some v := by
  rw [SortedSet.mem_def]
  simp only [keySet, keys, List.mem_map, find?_eq_some_iff]
  constructor
  · rintro ⟨⟨k', v⟩, hm, rfl⟩
    exact ⟨v, hm⟩
  · rintro ⟨v, hm⟩
    exact ⟨(k, v), hm, rfl⟩

/-- The keys of the entries that a filter leaves. -/
theorem mem_keySet_filter {m : SortedMap κ ν} {keep : κ → ν → Bool} {k : κ} :
    k ∈ (m.filter keep).keySet ↔ ∃ v, m.find? k = some v ∧ keep k v = true := by
  rw [mem_keySet]
  simp only [find?_filter, Option.filter_eq_some_iff]

/-- An entry whose key is above all others goes to the end. -/
theorem entries_insert_last {m : SortedMap κ ν} {k : κ} (v : ν)
    (h : ∀ e ∈ m.entries, compare k e.1 = .gt) : (m.insert k v).entries = m.entries ++ [(k, v)] := by
  show place k v m.entries = m.entries ++ [(k, v)]
  revert h
  induction m.entries with
  | nil => exact fun _ => rfl
  | cons e rest ih =>
    intro h
    unfold place
    rw [h e List.mem_cons_self]
    exact congrArg (e :: ·) (ih fun e' he' => h e' (List.mem_cons_of_mem e he'))

/-- The map with the value under a key changed, if there is one. -/
def change (m : SortedMap κ ν) (k : κ) (f : ν → ν) : SortedMap κ ν :=
  match m.find? k with
  | some v => m.insert k (f v)
  | none => m

theorem find?_change [DecidableEq κ] (m : SortedMap κ ν) (k k' : κ) (f : ν → ν) :
    (m.change k f).find? k' = if k' = k then (m.find? k').map f else m.find? k' := by
  unfold change
  rcases hk : m.find? k with _ | v
  · by_cases h : k' = k
    · subst h
      simp [hk]
    · simp [h]
  · rw [find?_insert]
    by_cases h : k' = k
    · subst h
      simp [hk]
    · simp [h]

/-- Two changes under one key are one change. -/
theorem change_change [DecidableEq κ] (m : SortedMap κ ν) (k : κ) (f g : ν → ν) :
    (m.change k f).change k g = m.change k fun v => g (f v) := by
  apply ext
  intro k'
  rw [find?_change, find?_change, find?_change]
  by_cases h : k' = k
  · rw [if_pos h, if_pos h, if_pos h, Option.map_map]
    rfl
  · rw [if_neg h, if_neg h, if_neg h]

/-- Changes under different keys can be made in either order. -/
theorem change_comm [DecidableEq κ] (m : SortedMap κ ν) {k l : κ} (h : k ≠ l) (f g : ν → ν) :
    (m.change k f).change l g = (m.change l g).change k f := by
  apply ext
  intro k'
  simp only [find?_change]
  by_cases hk : k' = k
  · have hl : k' ≠ l := hk ▸ h
    simp only [if_pos hk, if_neg hl]
  · simp only [if_neg hk]

/-- A change is what it makes of the value that is there. -/
theorem change_congr [DecidableEq κ] {m : SortedMap κ ν} {k : κ} {f g : ν → ν}
    (h : ∀ v, m.find? k = some v → f v = g v) : m.change k f = m.change k g := by
  unfold change
  rcases hv : m.find? k with _ | v
  · rfl
  · show m.insert k (f v) = m.insert k (g v)
    rw [h v hv]

@[simp] theorem contains_change [DecidableEq κ] (m : SortedMap κ ν) (k k' : κ) (f : ν → ν) :
    (m.change k f).contains k' = m.contains k' := by
  rw [contains, contains, find?_change]
  split
  · exact Option.isSome_map ..
  · rfl

theorem keys_change [DecidableEq κ] (m : SortedMap κ ν) (k : κ) (f : ν → ν) : (m.change k f).keys = m.keys := by
  refine congrArg SortedSet.toList (SortedSet.ext (s := (m.change k f).keySet) (t := m.keySet) fun k' => ?_)
  rw [mem_keySet, mem_keySet, ← contains_iff, ← contains_iff, contains_change]

theorem contains_insert [DecidableEq κ] (m : SortedMap κ ν) (k k' : κ) (v : ν) :
    (m.insert k v).contains k' = (k' == k || m.contains k') := by
  rw [contains, contains, find?_insert]
  by_cases h : k' = k <;> simp [h]

theorem keySet_insert [DecidableEq κ] (m : SortedMap κ ν) (k : κ) (v : ν) :
    (m.insert k v).keySet = m.keySet.insert k := by
  apply SortedSet.ext
  intro k'
  rw [SortedSet.mem_insert, mem_keySet, mem_keySet]
  simp only [find?_insert]
  by_cases h : k' = k <;> simp [h]

/-- An entry and what is left without it. -/
theorem entries_perm [DecidableEq κ] {m : SortedMap κ ν} {k : κ} {v : ν} (h : m.find? k = some v) :
    m.entries.Perm ((k, v) :: (m.erase k).entries) := by
  have nodup : ∀ u : SortedMap κ ν, u.entries.Nodup := fun u =>
    u.ascending.imp fun {a b} hab e => by subst e; simp at hab
  have hnew : (k, v) ∉ (m.erase k).entries := by
    rw [← find?_eq_some_iff, find?_erase, if_pos rfl]
    exact nofun
  rw [List.perm_ext_iff_of_nodup (nodup m) (List.nodup_cons.mpr ⟨hnew, nodup _⟩)]
  rintro ⟨k', v'⟩
  rw [List.mem_cons, ← find?_eq_some_iff, ← find?_eq_some_iff, find?_erase, Prod.mk.injEq]
  by_cases hk : k' = k
  · subst hk
    simp [h, eq_comm]
  · simp [hk]

/-- An entry under a new key is one more entry. -/
theorem entries_insert_perm [DecidableEq κ] {m : SortedMap κ ν} {k : κ} (v : ν) (h : m.find? k = none) :
    (m.insert k v).entries.Perm ((k, v) :: m.entries) := by
  have hfound : (m.insert k v).find? k = some v := by rw [find?_insert, if_pos rfl]
  have hrest : (m.insert k v).erase k = m := by
    apply ext
    intro k'
    rw [find?_erase, find?_insert]
    split
    · next hk => rw [hk, h]
    · rfl
  have hperm := entries_perm hfound
  rwa [hrest] at hperm

theorem values_perm [DecidableEq κ] {m : SortedMap κ ν} {k : κ} {v : ν} (h : m.find? k = some v) :
    m.values.Perm (v :: (m.erase k).values) :=
  List.Perm.map Prod.snd (entries_perm h)

/-- A change replaces one value. -/
theorem values_change_perm [DecidableEq κ] {m : SortedMap κ ν} {k : κ} {v : ν} (h : m.find? k = some v)
    (f : ν → ν) : (m.change k f).values.Perm (f v :: (m.erase k).values) := by
  have hchanged : (m.change k f).find? k = some (f v) := by rw [find?_change, if_pos rfl, h, Option.map_some]
  have hrest : (m.change k f).erase k = m.erase k := by
    apply ext
    intro k'
    rw [find?_erase, find?_erase, find?_change]
    split <;> rfl
  rw [← hrest]
  exact values_perm hchanged

/-- Looking up ascending keys gives the values in the order of the entries. -/
theorem filterMap_find? [BEq κ] [LawfulBEq κ] (m : SortedMap κ ν) (s : SortedSet κ) :
    s.toList.filterMap m.find? = (m.filter fun k _ => s.contains k).values := by
  have hascending : (s.toList.filterMap fun k => (m.find? k).map fun v => (k, v)).Pairwise
      fun a b => compare a.1 b.1 = .lt := by
    refine List.Pairwise.filterMap _ ?_ s.ascending
    intro k k' hlt e he e' he'
    obtain ⟨v, -, rfl⟩ := Option.map_eq_some_iff.mp he
    obtain ⟨v', -, rfl⟩ := Option.map_eq_some_iff.mp he'
    exact hlt
  have hsame : (⟨_, hascending⟩ : SortedMap κ ν) = m.filter fun k _ => s.contains k := by
    apply ext
    intro k
    apply Option.ext
    intro v
    rw [find?_filter, find?_eq_some_iff, Option.filter_eq_some_iff, SortedSet.contains_iff]
    show (k, v) ∈ s.toList.filterMap (fun k => (m.find? k).map fun v => (k, v)) ↔ _
    rw [List.mem_filterMap]
    constructor
    · rintro ⟨k', hk', he⟩
      obtain ⟨v', hv', he⟩ := Option.map_eq_some_iff.mp he
      cases he
      exact ⟨hv', hk'⟩
    · rintro ⟨hv, hk⟩
      exact ⟨k, hk, by rw [hv]; rfl⟩
  rw [← hsame, values, List.map_filterMap]
  refine congrFun (congrArg List.filterMap (funext fun k => ?_)) s.toList
  rcases m.find? k with _ | v <;> rfl

/-- The map with each value made into another. -/
def mapValues {α : Type} (m : SortedMap κ ν) (f : κ → ν → α) : SortedMap κ α :=
  ⟨m.entries.map fun e => (e.1, f e.1 e.2), List.pairwise_map.mpr m.ascending⟩

theorem find?_mapValues {α : Type} (m : SortedMap κ ν) (f : κ → ν → α) (k : κ) :
    (m.mapValues f).find? k = (m.find? k).map (f k) := by
  apply Option.ext
  intro a
  rw [find?_eq_some_iff, Option.map_eq_some_iff]
  simp only [find?_eq_some_iff]
  constructor
  · intro h
    obtain ⟨⟨k', v⟩, hmem, he⟩ := List.mem_map.mp h
    cases he
    exact ⟨v, hmem, rfl⟩
  · rintro ⟨v, hmem, rfl⟩
    exact List.mem_map.mpr ⟨(k, v), hmem, rfl⟩

/-- What is made of the entries is the same if it is the same under each key. -/
theorem map_entries_congr {α : Type} {m n : SortedMap κ ν} {f : κ → ν → α}
    (h : ∀ k, (m.find? k).map (f k) = (n.find? k).map (f k)) :
    m.entries.map (fun e => f e.1 e.2) = n.entries.map fun e => f e.1 e.2 := by
  have hsame : m.mapValues f = n.mapValues f := ext fun k => by rw [find?_mapValues, find?_mapValues, h]
  have hvalues : ∀ l : SortedMap κ ν, l.entries.map (fun e => f e.1 e.2) = (l.mapValues f).values :=
    fun l => by simp [values, mapValues]
  rw [hvalues, hvalues, hsame]

end SortedMap

end Mailroom
