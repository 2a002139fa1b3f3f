import Mailroom.Proofs.Mailstore.Outcomes
import Mailroom.Proofs.Mailstore.Shelf
import Mailroom.Proofs.Search.Meaning

/-! Moving messages by copying them.

A store that cannot move messages copies them, marks the originals deleted and removes what is
marked. Where it can hold the removal to the originals this comes to the same as moving them
(`moved_exact`), also within one folder; where it cannot, it comes to the same if nothing else is
marked. If one of the commands fails, the originals are still there, which they are not after a
move. `moveOrCopy_emulates` puts these together. -/
namespace Mailroom.Mailstore
open Folder

/-- There is a message with this identifier in the folder with this name. -/
def Holds (folders : SortedMap String Folder) (name : String) (u : Uid) : Prop :=
  ∃ f, folders.find? name = some f ∧ f.messages.contains u = true

theorem Holds.change {folders : SortedMap String Folder} {name : String} {u : Uid}
    (h : Holds folders name u) (other : String) {g : Folder → Folder}
    (hg : ∀ f, f.messages.contains u = true → (g f).messages.contains u = true) :
    Holds (folders.change other g) name u := by
  obtain ⟨f, hf, hu⟩ := h
  by_cases hname : name = other
  · refine ⟨g f, ?_, hg f hu⟩
    rw [SortedMap.find?_change, if_pos hname, hf]
    rfl
  · refine ⟨f, ?_, hu⟩
    rw [SortedMap.find?_change, if_neg hname, hf]

namespace Session

/-- There are numbers left for the messages in the folder that they are in, so that none of them
is put in its own place. -/
def FitsWithin (f : Folder) (uids : UidSet) : Prop :=
  (∀ u ∈ uids, u.value < f.shelf.next) ∧ f.shelf.next + (f.lookup uids).length ≤ UInt32.size

section
variable {folders left : SortedMap String Folder} {source destination : String} {f : Folder}
  {uids : UidSet} {capabilities : List Capability} {u : Uid}

/-! ### What moving comes to -/

/-- It is all the same whether the originals are taken away before or after copies are put in. -/
theorem transferred_remove (hf : folders.find? source = some f)
    (hfits : destination = source → FitsWithin f uids) :
    (transferred folders source destination f uids false).change source (·.remove uids) =
      transferred folders source destination f uids true := by
  show (folders.change destination _).change source _ = (folders.change source _).change destination _
  by_cases hsame : destination = source
  · subst hsame
    obtain ⟨hbelow, hroom⟩ := hfits rfl
    rw [SortedMap.change_change, SortedMap.change_change]
    refine SortedMap.change_congr fun f' hf' => ?_
    rw [hf] at hf'
    cases hf'
    exact remove_appendAll hbelow hroom
  · exact SortedMap.change_comm folders hsame _ _

/-- A store that can move messages, or remove chosen ones, moves them without touching others. -/
theorem moved_exact (hcan : Capability.move ∈ capabilities ∨ Capability.uidPlus ∈ capabilities)
    (hf : folders.find? source = some f) (hfits : destination = source → FitsWithin f uids) :
    moved capabilities folders source destination f uids =
      transferred folders source destination f uids true := by
  unfold moved
  by_cases hmoves : capabilities.contains .move = true
  · rw [if_pos hmoves]
  · have huidPlus : capabilities.contains .uidPlus = true :=
      List.contains_iff_mem.mpr (hcan.resolve_left fun h => hmoves (List.contains_iff_mem.mpr h))
    rw [if_neg hmoves, discarded, scope, if_pos huidPlus]
    simp only [expunge_markDeleted]
    exact transferred_remove hf hfits

/-- A store that can do neither moves messages without touching others if no other is marked. -/
theorem moved_unscoped_iff (hmove : Capability.move ∉ capabilities)
    (huidPlus : Capability.uidPlus ∉ capabilities) (hf : folders.find? source = some f)
    (hother : destination ≠ source) :
    moved capabilities folders source destination f uids =
        transferred folders source destination f uids true ↔
      ∀ u m, f.messages.find? u = some m → m.has .deleted = true → u ∈ uids := by
  have hscope : scope capabilities uids = none := if_neg fun h => huidPlus (List.contains_iff_mem.mp h)
  rw [moved, if_neg fun h => hmove (List.contains_iff_mem.mp h), discarded, hscope, transferred,
    if_neg Bool.false_ne_true, SortedMap.change_comm folders hother, transferred, if_pos rfl,
    ← expunge_all_markDeleted_iff]
  constructor
  · intro heq
    have hsource := congrArg (fun fs : SortedMap String Folder => fs.find? source) heq
    simpa [SortedMap.find?_change, hother.symm, hf] using hsource
  · intro heq
    refine congrArg (fun fs : SortedMap String Folder => fs.change destination _) ?_
    refine SortedMap.change_congr fun f' hf' => ?_
    rw [hf] at hf'
    cases hf'
    exact heq

/-! ### Where the originals are -/

/-- A move that fails leaves the originals. -/
theorem Partway.holds (h : Partway folders source destination f uids left) (hu : Holds folders source u) :
    Holds left source u := by
  have hcopied : Holds (transferred folders source destination f uids false) source u :=
    hu.change destination fun _ h => contains_appendAll h _
  cases h with
  | untouched => exact hu
  | copied => exact hcopied
  | marked => exact hcopied.change source fun _ h => contains_markDeleted h uids

theorem not_holds_change {g : Folder → Folder} (hg : ∀ f, (g f).messages.find? u = none) :
    ¬ Holds (folders.change source g) source u := by
  rintro ⟨f, hf, hu⟩
  rw [SortedMap.find?_change, if_pos rfl] at hf
  obtain ⟨f', -, rfl⟩ := Option.map_eq_some_iff.mp hf
  rw [SortedMap.contains, hg] at hu
  cases hu

/-- A move that succeeds does not. -/
theorem moved_not_holds (hf : folders.find? source = some f)
    (hfits : destination = source → FitsWithin f uids) (hu : u ∈ uids) :
    ¬ Holds (moved capabilities folders source destination f uids) source u := by
  unfold moved
  split
  · rw [← transferred_remove hf hfits]
    refine not_holds_change fun f => ?_
    rw [find?_remove, if_pos hu]
  · refine not_holds_change fun f => ?_
    have honly : ∀ u ∈ uids, (scope capabilities uids).all (·.contains u) = true := by
      intro u hu
      unfold scope
      split
      · exact SortedSet.contains_iff.mpr hu
      · rfl
    rw [find?_expunge_markDeleted f uids _ honly, if_pos hu]

end

/-! ### The folders in the end -/

/-- The session, if the store could do this when it was opened. -/
def offering (s : Session) (capabilities : List Capability) : Session :=
  { s with handle := { s.handle with capabilities } }

/-- The folders once messages have been moved, whatever came of it. -/
def afterMove (s : Session) (uids : UidSet) (destination : String) : SortedMap String Folder :=
  (MailSession.moveOrCopy uids destination s).2.server.folders

theorem afterMove_empty (s : Session) (destination : String) :
    s.afterMove .empty destination = s.server.folders := by
  rw [afterMove, MailSession.moveOrCopy, bind_ok (get_run s)]
  split <;> rfl

section
variable {s : Session} {source destination : String} {f : Folder} {uids : UidSet}
  {native other : List Capability}

theorem afterMove_cases (hne : uids.isEmpty = false) (hs : s.handle.selected = some (source, false))
    (hf : s.server.folders.find? source = some f) (hd : s.server.folders.contains destination = true) :
    (s.afterMove uids destination = moved s.handle.capabilities s.server.folders source destination f uids ∧
      ∀ c ∈ moveCommands s.handle.capabilities, s.server.failing ≠ some c) ∨
    (Partway s.server.folders source destination f uids (s.afterMove uids destination) ∧
      ∃ c ∈ moveCommands s.handle.capabilities, s.server.failing = some c) := by
  rcases (moveOrCopy_ends hne hs hf hd).cases with ⟨_, t, hrun, -, hmoved⟩ |
    ⟨_, t, hrun, -, hpartway, -, hfailing⟩
  · rw [afterMove, hrun]
    exact .inl hmoved
  · rw [afterMove, hrun]
    exact .inr ⟨hpartway, hfailing⟩

/-- No command serves both ways to move messages. -/
theorem moveCommands_disjoint (hnative : Capability.move ∈ native) (hother : Capability.move ∉ other)
    {c : String} (hc : c ∈ moveCommands native) : c ∉ moveCommands other := by
  rw [moveCommands, if_pos (List.contains_iff_mem.mpr hnative), List.mem_singleton] at hc
  rw [moveCommands, if_neg fun h => hother (List.contains_iff_mem.mp h), hc, removalName]
  split <;> decide

/-- Two ways to move messages leave the same folders if no command of either fails, and then if what
they come to is the same. -/
theorem afterMove_eq_iff (hnative : Capability.move ∈ native) (hother : Capability.move ∉ other)
    (hne : uids.isEmpty = false) (hs : s.handle.selected = some (source, false))
    (hpresent : ∀ u ∈ uids, Holds s.server.folders source u)
    (hf : s.server.folders.find? source = some f) (hd : s.server.folders.contains destination = true)
    (hfits : destination = source → FitsWithin f uids) :
    (s.offering native).afterMove uids destination = (s.offering other).afterMove uids destination ↔
      (∀ c ∈ moveCommands native ++ moveCommands other, s.server.failing ≠ some c) ∧
        moved other s.server.folders source destination f uids =
          moved native s.server.folders source destination f uids := by
  obtain ⟨u, hu⟩ := SortedSet.exists_mem hne
  rw [List.forall_mem_append]
  rcases afterMove_cases (s := s.offering native) hne hs hf hd with
      ⟨hmoved, hc⟩ | ⟨hpartway, c, hc, hfails⟩ <;>
    rcases afterMove_cases (s := s.offering other) hne hs hf hd with
      ⟨hmoved', hc'⟩ | ⟨hpartway', c', hc', hfails'⟩
  · rw [hmoved, hmoved']
    exact ⟨fun heq => ⟨⟨hc, hc'⟩, heq.symm⟩, fun h => h.2.symm⟩
  · refine iff_of_false (fun heq => ?_) fun h => h.1.2 c' hc' hfails'
    rw [← heq, hmoved] at hpartway'
    exact moved_not_holds hf hfits hu (hpartway'.holds (hpresent u hu))
  · refine iff_of_false (fun heq => ?_) fun h => h.1.1 c hc hfails
    rw [heq, hmoved'] at hpartway
    exact moved_not_holds hf hfits hu (hpartway.holds (hpresent u hu))
  · have hsame : some c = some c' := hfails.symm.trans hfails'
    cases hsame
    exact absurd hc' (moveCommands_disjoint hnative hother hc)

theorem numbered_fitsWithin (hn : f.Numbered) (hroom : f.shelf.next + uids.size ≤ UInt32.size)
    (hf : s.server.folders.find? source = some f)
    (hpresent : ∀ u ∈ uids, Holds s.server.folders source u) : FitsWithin f uids := by
  constructor
  · intro u hu
    obtain ⟨f', hf', hcontains⟩ := hpresent u hu
    rw [hf] at hf'
    cases hf'
    obtain ⟨m, hm⟩ := SortedMap.contains_iff.mp hcontains
    exact hn u m hm
  · have hlength : (f.lookup uids).length ≤ uids.size := List.length_filterMap_le ..
    omega

/-- Moving messages by copying them and removing the originals leaves the folders that moving them
leaves, also within one folder, as long as there are numbers left in it. This holds of every store
that fails none of the commands for it. If the removal cannot be held to the originals, and they are
moved to another folder, it holds if no other message of their folder is marked deleted. -/
theorem moveOrCopy_emulates (s : Session) (source destination : String) (uids : UidSet)
    (native emulating neither : List Capability) (hnative : Capability.move ∈ native)
    (hemulating : Capability.move ∉ emulating ∧ Capability.uidPlus ∈ emulating)
    (hneither : Capability.move ∉ neither ∧ Capability.uidPlus ∉ neither)
    (hs : s.handle.selected = some (source, false))
    (hpresent : ∀ u ∈ uids, Holds s.server.folders source u)
    (hd : s.server.folders.contains destination = true)
    (hroom : destination = source → ∀ f, s.server.folders.find? source = some f →
      f.Numbered ∧ f.shelf.next + uids.size ≤ UInt32.size) :
    ((s.offering native).afterMove uids destination = (s.offering emulating).afterMove uids destination ↔
      uids = .empty ∨
        ∀ c ∈ ["UID MOVE", "UID COPY", "UID STORE", "UID EXPUNGE"], s.server.failing ≠ some c) ∧
    (uids ≠ .empty → destination ≠ source →
      ((s.offering native).afterMove uids destination = (s.offering neither).afterMove uids destination ↔
        (∀ c ∈ ["UID MOVE", "UID COPY", "UID STORE", "EXPUNGE"], s.server.failing ≠ some c) ∧
          ∀ f u m, s.server.folders.find? source = some f → f.messages.find? u = some m →
            m.has .deleted = true → u ∈ uids)) := by
  by_cases hempty : uids = .empty
  · subst hempty
    refine ⟨iff_of_true ?_ (.inl rfl), fun h => absurd rfl h⟩
    rw [afterMove_empty, afterMove_empty]
    rfl
  have hne : uids.isEmpty = false := Bool.eq_false_iff.mpr fun h => hempty (SortedSet.isEmpty_iff.mp h)
  obtain ⟨u, hu⟩ := SortedSet.exists_mem hne
  obtain ⟨f, hf, -⟩ := hpresent u hu
  have hfits : destination = source → FitsWithin f uids := fun hsame =>
    numbered_fitsWithin (hroom hsame f hf).1 (hroom hsame f hf).2 hf hpresent
  have hmoved := moved_exact (.inl hnative) hf hfits
  have hcommands : moveCommands native = ["UID MOVE"] := if_pos (List.contains_iff_mem.mpr hnative)
  constructor
  · have hcommands' : moveCommands emulating = ["UID COPY", "UID STORE", "UID EXPUNGE"] := by
      rw [moveCommands, if_neg fun h => hemulating.1 (List.contains_iff_mem.mp h), removalName,
        if_pos (List.contains_iff_mem.mpr hemulating.2)]
    rw [afterMove_eq_iff hnative hemulating.1 hne hs hpresent hf hd hfits, hmoved,
      moved_exact (.inr hemulating.2) hf hfits, hcommands, hcommands', or_iff_right hempty]
    exact and_iff_left rfl
  · intro _ hother
    have hcommands' : moveCommands neither = ["UID COPY", "UID STORE", "EXPUNGE"] := by
      rw [moveCommands, if_neg fun h => hneither.1 (List.contains_iff_mem.mp h), removalName,
        if_neg fun h => hneither.2 (List.contains_iff_mem.mp h)]
    rw [afterMove_eq_iff hnative hneither.1 hne hs hpresent hf hd hfits, hmoved,
      moved_unscoped_iff hneither.1 hneither.2 hf hother, hcommands, hcommands']
    refine and_congr_right fun _ => ?_
    constructor
    · intro hmarked f' u m hf'
      rw [hf] at hf'
      cases hf'
      exact hmarked u m
    · exact fun hmarked u m => hmarked f u m hf

/-- A session with the inbox open, in which there are letters of Ann's and Bob's, on a store with
another folder. -/
def sortingLetters (failing : Option String) : Session where
  server := { (SearchSpec.annAndBob []).server with failing }.addFolder "Ann"
  handle := { capabilities := [], selected := some ("INBOX", false) }

theorem sortingLetters_holds (failing : Option String) :
    ∀ u ∈ SortedSet.ofList [Uid.least], Holds (sortingLetters failing).server.folders "INBOX" u := by
  intro u hu
  rw [SortedSet.mem_ofList, List.mem_singleton] at hu
  subst hu
  exact ⟨_, rfl, rfl⟩

theorem moveOrCopy_emulates_sortingLetters :
    ((sortingLetters none).offering [.move]).afterMove (.ofList [Uid.least]) "INBOX" =
      ((sortingLetters none).offering [.uidPlus]).afterMove (.ofList [Uid.least]) "INBOX" ∧
    ((sortingLetters none).offering [.move]).afterMove (.ofList [Uid.least]) "Ann" =
      ((sortingLetters none).offering []).afterMove (.ofList [Uid.least]) "Ann" := by
  have hnumbered : ∀ f, (sortingLetters none).server.folders.find? "INBOX" = some f →
      f.Numbered ∧ f.shelf.next + (SortedSet.ofList [Uid.least]).size ≤ UInt32.size := by
    intro f hf
    cases hf
    have hfirst := (shelf_append numbered_empty (by decide) (SearchSpec.letterFrom "ann@b.org")).2
    exact ⟨(shelf_append hfirst (by decide) (SearchSpec.letterFrom "bob@b.org")).2, by decide⟩
  have hwithin := moveOrCopy_emulates (sortingLetters none) "INBOX" "INBOX" _ [.move] [.uidPlus] []
    (by decide) (by decide) (by decide) rfl (sortingLetters_holds none) rfl fun _ => hnumbered
  have hother := moveOrCopy_emulates (sortingLetters none) "INBOX" "Ann" _ [.move] [.uidPlus] []
    (by decide) (by decide) (by decide) rfl (sortingLetters_holds none) rfl fun h => absurd h (by decide)
  refine ⟨hwithin.1.mpr (.inr fun c _ => nofun),
    (hother.2 (by decide) (by decide)).mpr ⟨fun c _ => nofun, ?_⟩⟩
  intro f u m hf hm hdeleted
  have hclean : ∀ e ∈ f.messages.entries, e.2.has .deleted = false := by
    cases hf
    decide +kernel
  rw [hclean (u, m) (SortedMap.find?_eq_some_iff.mp hm)] at hdeleted
  cases hdeleted

/-- Where the store fails to move messages but not to copy them, the letter stays or goes. -/
theorem moveOrCopy_without_move :
    ¬ ∀ (s : Session) (source destination : String) (uids : UidSet) (native emulating : List Capability),
      Capability.move ∈ native → Capability.move ∉ emulating → Capability.uidPlus ∈ emulating →
      s.handle.selected = some (source, false) → (∀ u ∈ uids, Holds s.server.folders source u) →
      s.server.folders.contains destination = true →
      (s.offering native).afterMove uids destination = (s.offering emulating).afterMove uids destination := by
  intro h
  have hsame := h (sortingLetters (some "UID MOVE")) "INBOX" "Ann" (.ofList [Uid.least]) [.move] [.uidPlus]
    (by decide) (by decide) (by decide) rfl (sortingLetters_holds _) rfl
  exact absurd hsame (by decide +kernel)

end

end Session

end Mailroom.Mailstore
