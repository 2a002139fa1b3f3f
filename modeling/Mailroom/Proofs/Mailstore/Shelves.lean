import Mailroom.Proofs.Mailstore.Shelf

/-! The folders of a store, written down.

`Shelves` gives the shelf of each folder by its name. Moving and deleting messages is said here
without requests, sets of identifiers or a bound on the numbers. Numbers only ever grow
(`Grows`), so that there is room for them on the way if there is room in the end (`Room`). The
changes that requests make to numbered folders are these, where there is room. -/
namespace Mailroom.Mailstore
open Folder

/-- The folders of a store, written down, by name. -/
abbrev Shelves := String → Option Shelf

namespace Shelves

/-- The shelves with one changed, if there is one of this name. -/
def change (shelves : Shelves) (name : String) (f : Shelf → Shelf) : Shelves := fun other =>
  if other = name then (shelves other).map f else shelves other

/-- The shelves with one of this name, empty if there was none. -/
def provide (shelves : Shelves) (name : String) : Shelves := fun other =>
  if other = name then some ((shelves other).getD .empty) else shelves other

/-- The messages of the inbox with one of these numbers. -/
def taken (shelves : Shelves) (inbox : String) (numbers : List Nat) : List Message :=
  ((shelves inbox).map (·.among numbers)).getD []

/-- The messages with one of these numbers moved from the inbox to a folder, which is created if
there was none. -/
def move (shelves : Shelves) (inbox folder : String) (numbers : List Nat) : Shelves :=
  ((shelves.provide folder).change inbox (·.without numbers)).change folder
    (·.receive (shelves.taken inbox numbers))

/-- The messages with one of these numbers gone from the inbox. -/
def delete (shelves : Shelves) (inbox : String) (numbers : List Nat) : Shelves :=
  shelves.change inbox (·.without numbers)

/-! ### Which shelves there are -/

section
variable {shelves : Shelves} {inbox name : String}

theorem isSome_provide (shelves : Shelves) (folder : String) :
    (shelves.provide folder folder).isSome = true := by
  unfold Shelves.provide
  rw [if_pos rfl]
  rfl

/-- A shelf that is there need not be provided. -/
theorem provide_of_isSome {shelves : Shelves} (h : (shelves name).isSome = true) :
    shelves.provide name = shelves := by
  funext other
  unfold Shelves.provide
  by_cases hother : other = name
  · subst hother
    obtain ⟨shelf, hshelf⟩ := Option.isSome_iff_exists.mp h
    rw [if_pos rfl, hshelf]
    rfl
  · rw [if_neg hother]

/-- A move provides its folder, so that providing it before changes nothing. -/
theorem move_provide (h : (shelves inbox).isSome = true) (folder : String) (numbers : List Nat) :
    (shelves.provide folder).move inbox folder numbers = shelves.move inbox folder numbers := by
  have hinbox : shelves.provide folder inbox = shelves inbox := by
    by_cases hsame : inbox = folder
    · rw [← hsame, provide_of_isSome h]
    · exact if_neg hsame
  unfold Shelves.move Shelves.taken
  rw [hinbox, provide_of_isSome (isSome_provide shelves folder)]

end

/-! ### Numbers grow -/

/-- There are numbers of 32 bits left on every shelf. -/
def Room (shelves : Shelves) : Prop :=
  ∀ name shelf, shelves name = some shelf → shelf.next < UInt32.size

/-- No shelf gets lost, and none goes back in its numbers. -/
def Grows (shelves later : Shelves) : Prop :=
  ∀ name shelf, shelves name = some shelf →
    ∃ shelf', later name = some shelf' ∧ shelf.next ≤ shelf'.next

variable {shelves later last : Shelves} {name inbox : String}

theorem Grows.refl (shelves : Shelves) : Grows shelves shelves :=
  fun _ shelf h => ⟨shelf, h, Nat.le_refl _⟩

theorem Grows.trans (h : Grows shelves later) (h' : Grows later last) : Grows shelves last := by
  intro name shelf hshelf
  obtain ⟨shelf', hshelf', hle⟩ := h name shelf hshelf
  obtain ⟨shelf'', hshelf'', hle'⟩ := h' name shelf' hshelf'
  exact ⟨shelf'', hshelf'', Nat.le_trans hle hle'⟩

/-- Where there is room later there was room before. -/
theorem Room.before (h : Room later) (hgrows : Grows shelves later) : Room shelves := by
  intro name shelf hshelf
  obtain ⟨shelf', hshelf', hle⟩ := hgrows name shelf hshelf
  exact Nat.lt_of_le_of_lt hle (h name shelf' hshelf')

theorem grows_change {f : Shelf → Shelf} (h : ∀ shelf, shelf.next ≤ (f shelf).next) :
    Grows shelves (shelves.change name f) := by
  intro other shelf hshelf
  unfold change
  by_cases hother : other = name
  · exact ⟨f shelf, by rw [if_pos hother, hshelf]; rfl, h shelf⟩
  · exact ⟨shelf, by rw [if_neg hother, hshelf], Nat.le_refl _⟩

theorem grows_provide (shelves : Shelves) (name : String) : Grows shelves (shelves.provide name) := by
  intro other shelf hshelf
  refine ⟨shelf, ?_, Nat.le_refl _⟩
  unfold provide
  rw [hshelf]
  split <;> rfl

theorem grows_without (shelves : Shelves) (inbox : String) (numbers : List Nat) :
    Grows shelves (shelves.change inbox (·.without numbers)) :=
  grows_change fun _ => Nat.le_refl _

theorem grows_receive (shelves : Shelves) (name : String) (ms : List Message) :
    Grows shelves (shelves.change name (·.receive ms)) := by
  refine grows_change fun shelf => ?_
  rw [Shelf.receive_next]
  exact Nat.le_add_right _ _

theorem Room.provide (h : Room shelves) (name : String) : Room (shelves.provide name) := by
  intro other shelf hshelf
  unfold Shelves.provide at hshelf
  split at hshelf
  · rcases hother : shelves other with _ | before
    · rw [hother] at hshelf
      cases hshelf
      decide
    · rw [hother] at hshelf
      cases hshelf
      exact h other before hother
  · exact h other shelf hshelf

theorem Room.change (h : Room shelves) {f : Shelf → Shelf}
    (hnext : ∀ shelf, shelves name = some shelf → (f shelf).next < UInt32.size) :
    Room (shelves.change name f) := by
  intro other shelf hshelf
  unfold Shelves.change at hshelf
  split at hshelf
  · next hother =>
    obtain ⟨before, hbefore, rfl⟩ := Option.map_eq_some_iff.mp hshelf
    exact hnext before (hother ▸ hbefore)
  · exact h other shelf hshelf

theorem Room.delete (h : Room shelves) (inbox : String) (numbers : List Nat) :
    Room (shelves.delete inbox numbers) :=
  h.change fun shelf hshelf => h inbox shelf hshelf

/-- A move needs room for the messages that it takes, where it puts them. -/
theorem Room.move (h : Room shelves) {folder : String} {numbers : List Nat}
    (hroom : ((shelves.provide folder folder).getD .empty).next + (shelves.taken inbox numbers).length <
      UInt32.size) : Room (shelves.move inbox folder numbers) := by
  refine Room.change ((h.provide folder).delete inbox numbers) fun shelf hshelf => ?_
  have hnext : shelf.next = ((shelves.provide folder folder).getD .empty).next := by
    unfold Shelves.delete Shelves.change at hshelf
    split at hshelf
    · obtain ⟨before, hbefore, rfl⟩ := Option.map_eq_some_iff.mp hshelf
      rw [hbefore]
      rfl
    · rw [hshelf]
      rfl
  rw [Shelf.receive_next, hnext]
  exact hroom

end Shelves

/-! ### Folders, written down -/

/-- The folders written down. -/
def shelvesOf (folders : SortedMap String Folder) : Shelves := fun name =>
  (folders.find? name).map Folder.shelf

theorem shelvesOf_apply (folders : SortedMap String Folder) (name : String) :
    shelvesOf folders name = (folders.find? name).map Folder.shelf := rfl

/-- Every folder is numbered. -/
def Numbered (folders : SortedMap String Folder) : Prop :=
  ∀ name f, folders.find? name = some f → f.Numbered

section
open Shelves
variable {folders : SortedMap String Folder} {name : String}

theorem numbered_iff :
    Numbered folders ↔
      ∀ e ∈ folders.entries, ∀ e' ∈ e.2.messages.entries, e'.1.value < e.2.shelf.next := by
  constructor
  · intro h e he
    exact (h e.1 e.2 (SortedMap.find?_eq_some_iff.mpr he)).of_entries
  · intro h name f hf u m hm
    exact h (name, f) (SortedMap.find?_eq_some_iff.mp hf) (u, m) (SortedMap.find?_eq_some_iff.mp hm)

instance (folders : SortedMap String Folder) : Decidable (Numbered folders) :=
  decidable_of_iff' _ numbered_iff

theorem room_shelvesOf_iff :
    Room (shelvesOf folders) ↔ ∀ e ∈ folders.entries, e.2.shelf.next < UInt32.size := by
  constructor
  · intro h e he
    refine h e.1 e.2.shelf ?_
    rw [shelvesOf_apply, SortedMap.find?_eq_some_iff.mpr he]
    rfl
  · intro h name shelf hshelf
    obtain ⟨f, hf, rfl⟩ := Option.map_eq_some_iff.mp hshelf
    exact h (name, f) (SortedMap.find?_eq_some_iff.mp hf)

theorem isSome_shelvesOf (folders : SortedMap String Folder) (name : String) :
    (shelvesOf folders name).isSome = folders.contains name := Option.isSome_map ..

theorem shelvesOf_change {g : Folder → Folder} {g' : Shelf → Shelf}
    (h : ∀ f, folders.find? name = some f → (g f).shelf = g' f.shelf) :
    shelvesOf (folders.change name g) = (shelvesOf folders).change name g' := by
  funext other
  unfold Shelves.change
  rw [shelvesOf_apply, shelvesOf_apply, SortedMap.find?_change]
  by_cases hother : other = name
  · subst hother
    rw [if_pos rfl, if_pos rfl]
    rcases hf : folders.find? other with _ | f
    · rfl
    · exact congrArg some (h f hf)
  · rw [if_neg hother, if_neg hother]

theorem numbered_change {g : Folder → Folder} (hn : Numbered folders)
    (h : ∀ f, folders.find? name = some f → (g f).Numbered) : Numbered (folders.change name g) := by
  intro other f hf
  rw [SortedMap.find?_change] at hf
  by_cases hother : other = name
  · subst hother
    rw [if_pos rfl] at hf
    obtain ⟨f', hf', rfl⟩ := Option.map_eq_some_iff.mp hf
    exact h f' hf'
  · rw [if_neg hother] at hf
    exact hn other f hf

/-- A new folder is an empty shelf. -/
theorem shelvesOf_create (h : folders.contains name = false) :
    shelvesOf (folders.insert name {}) = (shelvesOf folders).provide name := by
  funext other
  unfold Shelves.provide
  rw [shelvesOf_apply, shelvesOf_apply, SortedMap.find?_insert]
  by_cases hother : other = name
  · subst hother
    have hnone : folders.find? other = none := by
      rw [← Option.not_isSome_iff_eq_none]
      exact Bool.eq_false_iff.mp h
    rw [if_pos rfl, if_pos rfl, hnone]
    rfl
  · rw [if_neg hother, if_neg hother]

theorem numbered_create (hn : Numbered folders) (name : String) : Numbered (folders.insert name {}) := by
  intro other f hf
  rw [SortedMap.find?_insert] at hf
  split at hf
  · cases hf
    exact numbered_empty
  · exact hn other f hf

/-- Delivering a message keeps the folders numbered, as long as there is a number left. -/
theorem numbered_deliver {s : Server} (hn : Numbered s.folders) (m : Message)
    (hroom : ∀ f, s.folders.find? name = some f → f.shelf.next + 1 < UInt32.size) :
    Numbered (s.deliver name m).2.folders := by
  intro other f hf
  rw [Server.deliver, SortedMap.find?_insert] at hf
  split at hf
  · cases hf
    rcases hold : s.folders.find? name with _ | old
    · exact (shelf_append numbered_empty (by decide) m).2
    · exact (shelf_append (hn name old hold) (hroom old hold) m).2
  · exact hn other f hf

theorem numbered_addFolder {s : Server} (hn : Numbered s.folders) (name : String) :
    Numbered (s.addFolder name).folders := by
  unfold Server.addFolder
  split
  · exact hn
  · exact numbered_create hn name

theorem shelvesOf_remove (folders : SortedMap String Folder) (name : String) (uids : UidSet) :
    shelvesOf (folders.change name (·.remove uids)) =
      (shelvesOf folders).change name (·.without (numbersOf uids)) :=
  shelvesOf_change fun f _ => shelf_remove f uids

theorem numbered_removed (hn : Numbered folders) (name : String) (uids : UidSet) :
    Numbered (folders.change name (·.remove uids)) :=
  numbered_change hn fun f hf => numbered_remove (hn name f hf) uids

/-- Taking messages away leaves the next number of a folder. -/
theorem find?_removed {inbox : String} {uids : UidSet} {g : Folder}
    (h : (folders.change inbox (·.remove uids)).find? name = some g) :
    ∃ f, folders.find? name = some f ∧ f.shelf.next = g.shelf.next := by
  rw [SortedMap.find?_change] at h
  split at h
  · obtain ⟨f, hf, rfl⟩ := Option.map_eq_some_iff.mp h
    exact ⟨f, hf, rfl⟩
  · exact ⟨g, h, rfl⟩

/-- Where there is room for them, messages are put in as they are on paper. -/
theorem shelvesOf_appendAll (hn : Numbered folders) (ms : List Message)
    (hroom : ∀ f, folders.find? name = some f → f.shelf.next + ms.length < UInt32.size) :
    shelvesOf (folders.change name (·.appendAll ms)) = (shelvesOf folders).change name (·.receive ms) ∧
      Numbered (folders.change name (·.appendAll ms)) := by
  constructor
  · exact shelvesOf_change fun f hf => (shelf_appendAll (hn name f hf) ms (hroom f hf)).1
  · exact numbered_change hn fun f hf => (shelf_appendAll (hn name f hf) ms (hroom f hf)).2

end

end Mailroom.Mailstore
