import Mailroom.Proofs.Mailstore.Emulation
import Mailroom.Proofs.Mailstore.Shelves

/-! Moving and deleting messages, written down.

A store moves messages with one command or with three, and deletes them with two. Written down, the
messages are moved or gone in either case, if no others are touched and there are numbers left. -/
namespace Mailroom.Mailstore
open Folder Shelves Session

variable {folders : SortedMap String Folder} {inbox folder : String} {f : Folder} {uids : UidSet}
  {capabilities : List Capability}

/-- What moving takes on paper is what looking it up gives. -/
theorem move_lookup (hinbox : folders.find? inbox = some f) (hfolder : folders.contains folder = true) :
    (shelvesOf folders).move inbox folder (numbersOf uids) =
      ((shelvesOf folders).change inbox (·.without (numbersOf uids))).change folder
        (·.receive (f.lookup uids)) := by
  have htaken : (shelvesOf folders).taken inbox (numbersOf uids) = f.lookup uids := by
    rw [taken, shelvesOf_apply, hinbox, lookup_shelf]
    rfl
  rw [move, htaken, provide_of_isSome (by rw [isSome_shelvesOf, hfolder])]

/-- There are numbers of 32 bits left in a folder for the messages of the inbox that are moved there. -/
def Fits (folders : SortedMap String Folder) (inbox folder : String) (uids : UidSet) : Prop :=
  ((folders.find? folder).getD {}).shelf.next + (((folders.find? inbox).getD {}).lookup uids).length < UInt32.size

instance (folders : SortedMap String Folder) (inbox folder : String) (uids : UidSet) :
    Decidable (Fits folders inbox folder uids) := inferInstanceAs (Decidable (_ < _))

theorem Fits.next_lt (h : Fits folders inbox folder uids) (hinbox : folders.find? inbox = some f) {g : Folder}
    (hg : folders.find? folder = some g) : g.shelf.next + (f.lookup uids).length < UInt32.size := by
  rw [Fits, hinbox, hg] at h
  exact h

theorem Fits.within (h : Fits folders inbox folder uids) (hinbox : folders.find? inbox = some f)
    (hbelow : ∀ u ∈ uids, u.value < f.shelf.next) : folder = inbox → FitsWithin f uids := by
  rintro rfl
  exact ⟨hbelow, Nat.le_of_lt (h.next_lt hinbox hinbox)⟩

/-- If there is room after a move, there is room for the messages where they are moved to. -/
theorem fits_of_room (hinbox : folders.find? inbox = some f) (hfolder : folders.contains folder = true)
    (hroom : Room ((shelvesOf folders).move inbox folder (numbersOf uids))) : Fits folders inbox folder uids := by
  obtain ⟨g, hg⟩ := SortedMap.contains_iff.mp hfolder
  rw [move_lookup hinbox hfolder] at hroom
  obtain ⟨shelf, hshelf, hle⟩ := grows_without (shelvesOf folders) inbox (numbersOf uids) folder g.shelf
    (by rw [shelvesOf_apply, hg, Option.map_some])
  have hreceived : ((shelvesOf folders).change inbox (·.without (numbersOf uids))).change folder
      (·.receive (f.lookup uids)) folder = some (shelf.receive (f.lookup uids)) := by
    rw [Shelves.change, if_pos rfl, hshelf, Option.map_some]
  have hlt := hroom folder _ hreceived
  rw [Shelf.receive_next] at hlt
  rw [Fits, hinbox, hg]
  exact Nat.lt_of_le_of_lt (Nat.add_le_add_right hle _) hlt

/-- A store that touches no other messages moves messages as they are moved on paper. -/
theorem moved_shelves (hn : Numbered folders)
    (hcan : Capability.move ∈ capabilities ∨ Capability.uidPlus ∈ capabilities)
    (hinbox : folders.find? inbox = some f) (hfolder : folders.contains folder = true)
    (hbelow : ∀ u ∈ uids, u.value < f.shelf.next) (hfits : Fits folders inbox folder uids) :
    shelvesOf (moved capabilities folders inbox folder f uids) =
        (shelvesOf folders).move inbox folder (numbersOf uids) ∧
      Numbered (moved capabilities folders inbox folder f uids) := by
  rw [moved_exact hcan hinbox (hfits.within hinbox hbelow), move_lookup hinbox hfolder, ← shelvesOf_remove]
  refine shelvesOf_appendAll (numbered_removed hn inbox uids) (f.lookup uids) fun g hg => ?_
  obtain ⟨g', hg', hnext⟩ := find?_removed hg
  rw [← hnext]
  exact hfits.next_lt hinbox hg'

/-- So it does with deleting them. -/
theorem discarded_shelves (hn : Numbered folders) (huidPlus : Capability.uidPlus ∈ capabilities)
    (inbox : String) (uids : UidSet) :
    shelvesOf (discarded capabilities folders inbox uids) =
        (shelvesOf folders).delete inbox (numbersOf uids) ∧
      Numbered (discarded capabilities folders inbox uids) := by
  have hdiscarded : discarded capabilities folders inbox uids = folders.change inbox (·.remove uids) := by
    rw [discarded, scope, if_pos (List.contains_iff_mem.mpr huidPlus)]
    simp only [expunge_markDeleted]
  rw [hdiscarded, shelvesOf_remove]
  exact ⟨rfl, numbered_removed hn inbox uids⟩

end Mailroom.Mailstore
