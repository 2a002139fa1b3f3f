import Mailroom.Proofs.Mailstore.Requests
import Mailroom.Proofs.Mailstore.Shelves

/-! How folders go on from one step to the next.

A folder goes on (`Continues`) if some of its messages stay, as they are or marked deleted, and those that
arrive get the next numbers, so that none takes the place of another. The folders of a store go on
(`GoOn`) if each of them goes on from the folder that it was, under whatever name, or is new. Whatever is
done to the folders of a store has one lemma here, named for it. -/
namespace Mailroom.Mailstore
open Folder

namespace Folder

/-- The message was in the folder under this identifier, perhaps without the mark of a deletion. -/
def Keeps (f : Folder) (u : Uid) (m' : Message) : Prop :=
  ∃ m, f.messages.find? u = some m ∧ (m' = m ∨ m' = m.withFlag .deleted)

/-- The folder `f` has become `f'`, and these messages have arrived. -/
structure Continues (f f' : Folder) (arrived : List Message) : Prop where
  entries : ∃ stay news, f'.messages.entries = stay ++ news ∧ (∀ e ∈ stay, f.Keeps e.1 e.2) ∧
    news.map Prod.snd = arrived ∧ ∀ e ∈ news, f.shelf.next ≤ e.1.value
  next : f'.shelf.next = f.shelf.next + arrived.length
  numbered : f'.Numbered

variable {f f' g : Folder} {ms : List Message} {uids : UidSet}

theorem keeps_of_find? {u : Uid} {m : Message} (h : f.messages.find? u = some m) : f.Keeps u m :=
  ⟨m, h, .inl rfl⟩

/-- A folder goes on if no message comes to it. -/
theorem continues_of_keeps (hn : f.Numbered) (hnext : f'.shelf.next = f.shelf.next)
    (h : ∀ u m, f'.messages.find? u = some m → f.Keeps u m) : f.Continues f' [] where
  entries := ⟨f'.messages.entries, [], (List.append_nil _).symm,
    fun e he => h e.1 e.2 (SortedMap.find?_eq_some_iff.mpr he), rfl, by simp⟩
  next := by rw [hnext, List.length_nil, Nat.add_zero]
  numbered u m hm := by
    obtain ⟨m', hm', -⟩ := h u m hm
    rw [hnext]
    exact hn u m' hm'

theorem continues_markDeleted (hn : f.Numbered) (uids : UidSet) : f.Continues (f.markDeleted uids) [] := by
  refine continues_of_keeps hn rfl fun u m hm => ?_
  rw [find?_markDeleted] at hm
  split at hm
  · obtain ⟨m', hm', rfl⟩ := Option.map_eq_some_iff.mp hm
    exact ⟨m', hm', .inr rfl⟩
  · exact keeps_of_find? hm

theorem find?_expunge (f : Folder) (only : Option UidSet) (u : Uid) :
    (f.expunge only).messages.find? u =
      (f.messages.find? u).filter fun m => !(m.has .deleted && only.all (·.contains u)) :=
  SortedMap.find?_filter ..

/-- Messages that are put in stand behind the others. -/
theorem entries_appendAll (hn : f.Numbered) (hroom : f.shelf.next + ms.length < UInt32.size) :
    ∃ news, (f.appendAll ms).messages.entries = f.messages.entries ++ news ∧ news.map Prod.snd = ms ∧
      ∀ e ∈ news, f.shelf.next ≤ e.1.value := by
  induction ms generalizing f with
  | nil => exact ⟨[], (List.append_nil _).symm, rfl, by simp⟩
  | cons m rest ih =>
    rw [List.length_cons] at hroom
    obtain ⟨hshelf, hnumbered⟩ := shelf_append hn (by omega) m
    have hnext : (f.append m).shelf.next = f.shelf.next + 1 := by rw [hshelf, Shelf.put_next]
    have hupcoming : f.upcoming.value = f.shelf.next := upcoming_value (by omega)
    have hfirst : (f.append m).messages.entries = f.messages.entries ++ [(f.upcoming, m)] := by
      refine SortedMap.entries_insert_last m fun e he => ?_
      rw [Uid.compare_def, hupcoming]
      exact Nat.compare_eq_gt.mpr (hn.of_entries e he)
    obtain ⟨news, hentries, hmessages, hnew⟩ := ih hnumbered (by omega)
    refine ⟨(f.upcoming, m) :: news, ?_, by rw [List.map_cons, hmessages], ?_⟩
    · show ((f.append m).appendAll rest).messages.entries = _
      rw [hentries, hfirst, List.append_assoc]
      rfl
    · intro e he
      rcases List.mem_cons.mp he with rfl | he
      · exact Nat.le_of_eq hupcoming.symm
      · exact Nat.le_trans (by omega) (hnew e he)

theorem find?_appendAll (hn : f.Numbered) (hroom : f.shelf.next + ms.length < UInt32.size) {u : Uid}
    {m : Message} (h : f.messages.find? u = some m) : (f.appendAll ms).messages.find? u = some m := by
  obtain ⟨news, hentries, -⟩ := entries_appendAll hn hroom
  rw [SortedMap.find?_eq_some_iff] at h ⊢
  rw [hentries]
  exact List.mem_append_left news h

/-- What is left of a folder from which messages may have been taken. -/
structure Remnant (f g : Folder) : Prop where
  next : g.shelf.next = f.shelf.next
  sub : ∀ u m, g.messages.find? u = some m → f.messages.find? u = some m

theorem Remnant.refl (f : Folder) : f.Remnant f := ⟨rfl, fun _ _ h => h⟩

theorem remnant_remove (f : Folder) (uids : UidSet) : f.Remnant (f.remove uids) := by
  refine ⟨rfl, fun u m hm => ?_⟩
  rw [find?_remove] at hm
  split at hm
  · cases hm
  · exact hm

theorem remnant_expunge (f : Folder) (only : Option UidSet) : f.Remnant (f.expunge only) := by
  refine ⟨rfl, fun u m hm => ?_⟩
  rw [find?_expunge, Option.filter_eq_some_iff] at hm
  exact hm.1

theorem Remnant.numbered (h : f.Remnant g) (hn : f.Numbered) : g.Numbered := fun u m hm => by
  rw [h.next]
  exact hn u m (h.sub u m hm)

theorem Remnant.continues (h : f.Remnant g) (hn : f.Numbered) : f.Continues g [] :=
  continues_of_keeps hn h.next fun u m hm => keeps_of_find? (h.sub u m hm)

/-- Messages can be put in after others have been taken away. -/
theorem Remnant.continues_appendAll (h : f.Remnant g) (hn : f.Numbered)
    (hroom : f.shelf.next + ms.length < UInt32.size) : f.Continues (g.appendAll ms) ms := by
  rw [← h.next] at hroom
  obtain ⟨news, hentries, hmessages, hnew⟩ := entries_appendAll (h.numbered hn) hroom
  obtain ⟨hshelf, hnumbered⟩ := shelf_appendAll (h.numbered hn) ms hroom
  refine ⟨⟨_, news, hentries, fun e he => ?_, hmessages, fun e he => h.next ▸ hnew e he⟩, ?_, hnumbered⟩
  · exact keeps_of_find? (h.sub e.1 e.2 (SortedMap.find?_eq_some_iff.mpr he))
  · rw [hshelf, Shelf.receive_next, h.next]

end Folder

/-! ### The folders of a store -/

/-- Each of the later folders goes on from the folder that had the former name, or from nothing if there
was none, and the messages have arrived in it that are given by its name. -/
def GoOn (folders later : SortedMap String Folder) (former : String → String)
    (arrived : String → List Message) : Prop :=
  ∀ name f', later.find? name = some f' →
    ((folders.find? (former name)).getD {}).Continues f' (arrived name)

/-- These messages for one folder, and none for the others. -/
def arrivingIn (name : String) (ms : List Message) (other : String) : List Message :=
  if other = name then ms else []

/-- The name that a folder had before one was renamed. -/
def beforeRename (old new : String) (other : String) : String := if other = new then old else other

variable {folders : SortedMap String Folder} {name : String} {f : Folder}

theorem goOn_same (hn : Numbered folders) : GoOn folders folders id fun _ => [] := by
  intro name f hf
  rw [id, hf]
  exact (Remnant.refl f).continues (hn name f hf)

/-- The folders of which each is what is left of a folder of the same name. -/
theorem goOn_change {g : Folder → Folder} (hn : Numbered folders)
    (h : ∀ f : Folder, f.Numbered → f.Continues (g f) []) :
    GoOn folders (folders.change name g) id fun _ => [] := by
  intro other f' hf'
  rw [SortedMap.find?_change] at hf'
  split at hf'
  · obtain ⟨f, hf, rfl⟩ := Option.map_eq_some_iff.mp hf'
    rw [id, hf]
    exact h f (hn other f hf)
  · exact goOn_same hn other f' hf'

theorem goOn_create (hn : Numbered folders) (hnew : folders.contains name = false) :
    GoOn folders (folders.insert name {}) id fun _ => [] := by
  intro other f' hf'
  rw [SortedMap.find?_insert] at hf'
  split at hf'
  · next hother =>
    cases hf'
    have hnone : folders.find? other = none := by
      rw [hother, ← Option.not_isSome_iff_eq_none]
      exact Bool.eq_false_iff.mp hnew
    rw [id, hnone]
    exact (Remnant.refl _).continues numbered_empty
  · exact goOn_same hn other f' hf'

theorem goOn_rename {old new : String} (hn : Numbered folders) (hf : folders.find? old = some f) :
    GoOn folders ((folders.erase old).insert new f) (beforeRename old new) fun _ => [] := by
  intro other f' hf'
  rw [SortedMap.find?_insert, SortedMap.find?_erase] at hf'
  by_cases hother : other = new
  · rw [if_pos hother] at hf'
    cases hf'
    rw [beforeRename, if_pos hother, hf]
    exact (Remnant.refl f).continues (hn old f hf)
  · rw [if_neg hother] at hf'
    rw [beforeRename, if_neg hother]
    split at hf'
    · cases hf'
    · exact goOn_same hn other f' hf'

theorem goOn_erase (hn : Numbered folders) (name : String) :
    GoOn folders (folders.erase name) id fun _ => [] := by
  intro other f' hf'
  rw [SortedMap.find?_erase] at hf'
  split at hf'
  · cases hf'
  · exact goOn_same hn other f' hf'

theorem numbered_getD (hn : Numbered folders) (name : String) : ((folders.find? name).getD {}).Numbered := by
  rcases hf : folders.find? name with _ | f
  · exact numbered_empty
  · exact hn name f hf

theorem goOn_deliver {s : Server} (hn : Numbered s.folders) (m : Message)
    (hroom : ((s.folders.find? name).getD {}).shelf.next + 1 < UInt32.size) :
    GoOn s.folders (s.deliver name m).2.folders id (arrivingIn name [m]) := by
  intro other f' hf'
  rw [Server.deliver, SortedMap.find?_insert] at hf'
  by_cases hother : other = name
  · subst hother
    rw [if_pos rfl] at hf'
    cases hf'
    rw [arrivingIn, if_pos rfl]
    have hone : ((s.folders.find? other).getD {}).shelf.next + [m].length < UInt32.size := hroom
    exact (Remnant.refl _).continues_appendAll (numbered_getD hn other) hone
  · rw [if_neg hother] at hf'
    rw [arrivingIn, if_neg hother]
    exact goOn_same hn other f' hf'

/-- Messages may be put into the folder from which they are taken. -/
theorem goOn_transferred {source destination : String} {uids : UidSet} {removes : Bool}
    (hn : Numbered folders) (hroom : ∀ g, folders.find? destination = some g →
      g.shelf.next + (f.lookup uids).length < UInt32.size) :
    GoOn folders (Session.transferred folders source destination f uids removes) id
      (arrivingIn destination (f.lookup uids)) := by
  have hleft : ∀ other g, (if removes then folders.change source (·.remove uids) else folders).find? other =
      some g → ∃ g', folders.find? other = some g' ∧ g'.Remnant g := by
    intro other g hg
    split at hg
    · rw [SortedMap.find?_change] at hg
      split at hg
      · obtain ⟨g', hg', rfl⟩ := Option.map_eq_some_iff.mp hg
        exact ⟨g', hg', remnant_remove g' uids⟩
      · exact ⟨g, hg, .refl g⟩
    · exact ⟨g, hg, .refl g⟩
  intro other f' hf'
  rw [Session.transferred, SortedMap.find?_change] at hf'
  by_cases hother : other = destination
  · subst hother
    rw [if_pos rfl] at hf'
    obtain ⟨g, hg, rfl⟩ := Option.map_eq_some_iff.mp hf'
    obtain ⟨g', hg', hremnant⟩ := hleft other g hg
    rw [arrivingIn, if_pos rfl, id, hg']
    exact hremnant.continues_appendAll (hn other g' hg') (hroom g' hg')
  · rw [if_neg hother] at hf'
    obtain ⟨g', hg', hremnant⟩ := hleft other f' hf'
    rw [arrivingIn, if_neg hother, id, hg']
    exact hremnant.continues (hn other g' hg')

end Mailroom.Mailstore
