import Mailroom.Mailstore.Session
import Mailroom.Proofs.Sorted.Views

/-! Folders by the numbers of their messages.

A `Shelf` is a folder as one would write it down: the messages in the order of their numbers,
and the next number. Taking messages away and putting messages in are plain list operations
there, with no bound on the numbers. A folder is `Numbered` if its messages have lesser numbers
than the next, which everything that happens to it preserves; then what happens to the folder is
what happens to its shelf, as long as the numbers have 32 bits. -/
namespace Mailroom.Mailstore

/-- A folder written down: the next number, and the messages with theirs, ascending. -/
structure Shelf where
  next : Nat
  mails : List (Nat × Message)
  deriving DecidableEq

namespace Shelf

/-- A shelf without messages. -/
def empty : Shelf := ⟨1, []⟩

/-- The messages with one of these numbers. -/
def among (shelf : Shelf) (numbers : List Nat) : List Message :=
  (shelf.mails.filter fun e => numbers.contains e.1).map (·.2)

/-- The shelf without the messages with one of these numbers. -/
def without (shelf : Shelf) (numbers : List Nat) : Shelf :=
  { shelf with mails := shelf.mails.filter fun e => !numbers.contains e.1 }

/-- The shelf with one message more, under the next number. -/
def put (shelf : Shelf) (m : Message) : Shelf := ⟨shelf.next + 1, shelf.mails ++ [(shelf.next, m)]⟩

/-- The shelf with several messages more, under the next numbers. -/
def receive (shelf : Shelf) (ms : List Message) : Shelf := ms.foldl put shelf

section
variable (shelf : Shelf) (ms : List Message)

@[simp] theorem put_next (m : Message) : (shelf.put m).next = shelf.next + 1 := rfl

theorem receive_next : (shelf.receive ms).next = shelf.next + ms.length := by
  induction ms generalizing shelf with
  | nil => rfl
  | cons m rest ih =>
    show ((shelf.put m).receive rest).next = _
    rw [ih, put_next, List.length_cons]
    omega

end

end Shelf

namespace Folder
variable {f : Folder}

/-- The folder written down. -/
def shelf (f : Folder) : Shelf := ⟨max f.nextUid 1, f.messages.entries.map fun e => (e.1.value, e.2)⟩

/-- A folder whose messages have lesser numbers than the next one gets. -/
def Numbered (f : Folder) : Prop := ∀ u m, f.messages.find? u = some m → u.value < f.shelf.next

theorem Numbered.of_entries (h : f.Numbered) : ∀ e ∈ f.messages.entries, e.1.value < f.shelf.next :=
  fun e he => h e.1 e.2 (SortedMap.find?_eq_some_iff.mpr he)

theorem numbered_empty : ({} : Folder).Numbered := by
  intro u m h
  cases h

/-- The numbers of a set of identifiers. -/
def numbersOf (uids : UidSet) : List Nat := uids.toList.map Uid.value

theorem mem_numbersOf {uids : UidSet} {u : Uid} : u.value ∈ numbersOf uids ↔ u ∈ uids := by
  rw [numbersOf, List.mem_map]
  constructor
  · rintro ⟨v, hv, hvalue⟩
    rwa [← Uid.ext_value hvalue]
  · exact fun hu => ⟨u, hu, rfl⟩

theorem contains_numbersOf (uids : UidSet) (u : Uid) :
    (numbersOf uids).contains u.value = uids.contains u := by
  rw [Bool.eq_iff_iff, List.contains_iff_mem, mem_numbersOf, SortedSet.contains_iff]

/-! ### Messages that come -/

/-- Below the last number of 32 bits a message gets the next number. -/
theorem upcoming_value (hroom : f.shelf.next < UInt32.size) : f.upcoming.value = f.shelf.next := by
  have hnext : 0 < max f.nextUid 1 ∧ max f.nextUid 1 < UInt32.size := ⟨by omega, hroom⟩
  rw [upcoming, Uid.ofNat?, dif_pos hnext]
  rfl

theorem shelf_append (h : f.Numbered) (hroom : f.shelf.next + 1 < UInt32.size) (m : Message) :
    (f.append m).shelf = f.shelf.put m ∧ (f.append m).Numbered := by
  have hupcoming : f.upcoming.value = f.shelf.next := upcoming_value (by omega)
  have hlast : ∀ e ∈ f.messages.entries, compare f.upcoming e.1 = .gt := by
    intro e he
    rw [Uid.compare_def, hupcoming]
    exact Nat.compare_eq_gt.mpr (h.of_entries e he)
  have hnext : (f.append m).shelf.next = f.shelf.next + 1 := by
    show max ((f.shelf.next + 1) % UInt32.size) 1 = f.shelf.next + 1
    rw [Nat.mod_eq_of_lt hroom]
    omega
  have hmails : (f.append m).shelf.mails = f.shelf.mails ++ [(f.shelf.next, m)] := by
    show (f.messages.insert f.upcoming m).entries.map (fun e => (e.1.value, e.2)) = _
    rw [SortedMap.entries_insert_last m hlast, List.map_append, ← hupcoming]
    rfl
  have hshelf : (f.append m).shelf = f.shelf.put m := by
    rw [Shelf.put, ← hnext, ← hmails]
  refine ⟨hshelf, fun u m' hm' => ?_⟩
  rw [hshelf, Shelf.put_next]
  have hfind : (f.append m).messages.find? u =
      if u = f.upcoming then some m else f.messages.find? u := SortedMap.find?_insert ..
  rw [hfind] at hm'
  split at hm'
  · next hu =>
    rw [hu, hupcoming]
    omega
  · exact Nat.lt_succ_of_lt (h u m' hm')

theorem shelf_appendAll (h : f.Numbered) (ms : List Message) (hroom : f.shelf.next + ms.length < UInt32.size) :
    (f.appendAll ms).shelf = f.shelf.receive ms ∧ (f.appendAll ms).Numbered := by
  induction ms generalizing f with
  | nil => exact ⟨rfl, h⟩
  | cons m rest ih =>
    rw [List.length_cons] at hroom
    obtain ⟨hshelf, hnumbered⟩ := shelf_append h (by omega) m
    have hroom' : (f.append m).shelf.next + rest.length < UInt32.size := by
      rw [hshelf, Shelf.put_next]
      omega
    obtain ⟨hrest, hall⟩ := ih hnumbered hroom'
    refine ⟨?_, hall⟩
    show ((f.append m).appendAll rest).shelf = (f.shelf.put m).receive rest
    rw [hrest, hshelf]

/-! ### Messages that go -/

theorem shelf_remove (f : Folder) (uids : UidSet) :
    (f.remove uids).shelf = f.shelf.without (numbersOf uids) := by
  have hmails : (f.remove uids).shelf.mails = (f.shelf.without (numbersOf uids)).mails := by
    show (f.messages.entries.filter fun e => !uids.contains e.1).map _ = (f.messages.entries.map _).filter _
    rw [List.filter_map]
    simp only [Function.comp_def, contains_numbersOf]
  exact congrArg (Shelf.mk f.shelf.next) hmails

theorem numbered_remove (h : f.Numbered) (uids : UidSet) : (f.remove uids).Numbered := by
  intro u m hm
  have hfind : (f.remove uids).messages.find? u = _ := SortedMap.find?_filter ..
  rw [hfind, Option.filter_eq_some_iff] at hm
  exact h u m hm.1

/-- Looking messages up gives them in the order of their numbers. -/
theorem lookup_shelf (f : Folder) (uids : UidSet) : f.lookup uids = f.shelf.among (numbersOf uids) := by
  rw [lookup, SortedMap.filterMap_find?]
  show (f.messages.entries.filter fun e => uids.contains e.1).map _ =
    ((f.messages.entries.map _).filter _).map _
  rw [List.filter_map, List.map_map]
  simp only [Function.comp_def, contains_numbersOf]

theorem has_withFlag (m : Message) (flag : Flag) : (m.withFlag flag).has flag = true := by
  unfold Message.withFlag Message.has
  by_cases h : m.flags.contains flag = true
  · rw [if_pos h, h]
  · rw [if_neg h]
    simp

theorem withFlag_withFlag (m : Message) (flag : Flag) :
    (m.withFlag flag).withFlag flag = m.withFlag flag := if_pos (has_withFlag m flag)

theorem find?_marked_from (uids : List Uid) (messages : SortedMap Uid Message) (u : Uid) :
    (uids.foldl (fun messages uid => messages.change uid (·.withFlag .deleted)) messages).find? u =
      if u ∈ uids then (messages.find? u).map (·.withFlag .deleted) else messages.find? u := by
  induction uids generalizing messages with
  | nil => rfl
  | cons v rest ih =>
    rw [List.foldl_cons, ih, SortedMap.find?_change]
    by_cases hv : u = v
    · subst hv
      rcases messages.find? u with _ | m
      · simp
      · simp [withFlag_withFlag]
    · simp [hv]

theorem markDeleted_messages (f : Folder) (uids : UidSet) :
    (f.markDeleted uids).messages =
      uids.toList.foldl (fun messages uid => messages.change uid (·.withFlag .deleted)) f.messages := by
  refine congrArg (fun mark => uids.toList.foldl mark f.messages) ?_
  funext messages uid
  unfold SortedMap.change
  rcases messages.find? uid with _ | m <;> rfl

theorem find?_markDeleted (f : Folder) (uids : UidSet) (u : Uid) :
    (f.markDeleted uids).messages.find? u =
      if u ∈ uids then (f.messages.find? u).map (·.withFlag .deleted) else f.messages.find? u := by
  rw [markDeleted_messages]
  exact find?_marked_from uids.toList f.messages u

theorem find?_remove (f : Folder) (uids : UidSet) (u : Uid) :
    (f.remove uids).messages.find? u = if u ∈ uids then none else f.messages.find? u := by
  show (f.messages.filter _).find? u = _
  rw [SortedMap.find?_filter]
  by_cases hu : u ∈ uids
  · rw [if_pos hu, SortedSet.contains_iff.mpr hu]
    rcases f.messages.find? u with _ | m <;> rfl
  · have hcontains : uids.contains u = false := by rwa [← Bool.not_eq_true, SortedSet.contains_iff]
    rw [if_neg hu, hcontains]
    rcases f.messages.find? u with _ | m <;> rfl

/-- Of the messages that are marked, and of those marked before, a removal leaves none among those
to which it is held. -/
theorem find?_expunge_markDeleted (f : Folder) (uids : UidSet) (only : Option UidSet)
    (honly : ∀ u ∈ uids, only.all (·.contains u) = true) (u : Uid) :
    ((f.markDeleted uids).expunge only).messages.find? u = if u ∈ uids then none
      else (f.messages.find? u).filter fun m => !(m.has .deleted && only.all (·.contains u)) := by
  show ((f.markDeleted uids).messages.filter _).find? u = _
  rw [SortedMap.find?_filter, find?_markDeleted]
  by_cases hu : u ∈ uids
  · rw [if_pos hu, if_pos hu]
    rcases f.messages.find? u with _ | m
    · rfl
    · simp [Option.filter, honly u hu, has_withFlag]
  · rw [if_neg hu, if_neg hu]

/-- Marking messages and removing those of them that are marked removes them. -/
theorem expunge_markDeleted (f : Folder) (uids : UidSet) :
    (f.markDeleted uids).expunge (some uids) = f.remove uids := by
  have hmessages : ((f.markDeleted uids).expunge (some uids)).messages = (f.remove uids).messages := by
    apply SortedMap.ext
    intro u
    rw [find?_expunge_markDeleted f uids (some uids) fun _ => SortedSet.contains_iff.mpr, find?_remove]
    by_cases hu : u ∈ uids
    · rw [if_pos hu, if_pos hu]
    · have hcontains : uids.contains u = false := by rwa [← Bool.not_eq_true, SortedSet.contains_iff]
      rw [if_neg hu, if_neg hu]
      rcases f.messages.find? u with _ | m <;> simp [Option.filter, hcontains]
  exact congrArg (Folder.mk f.nextUid) hmessages

/-- A removal that is not held to the marked messages removes just these if no other is marked. -/
theorem expunge_all_markDeleted_iff (f : Folder) (uids : UidSet) :
    (f.markDeleted uids).expunge none = f.remove uids ↔
      ∀ u m, f.messages.find? u = some m → m.has .deleted = true → u ∈ uids := by
  have hfind : ∀ u, ((f.markDeleted uids).expunge none).messages.find? u = if u ∈ uids then none
      else (f.messages.find? u).filter fun m => !m.has .deleted := by
    intro u
    rw [find?_expunge_markDeleted f uids none fun _ _ => rfl]
    simp
  constructor
  · intro heq u m hm hdeleted
    have hsame := congrArg (fun g : Folder => g.messages.find? u) heq
    simp only [hfind, find?_remove, hm] at hsame
    by_cases hu : u ∈ uids
    · exact hu
    · simp [hu, Option.filter, hdeleted] at hsame
  · intro hmarked
    refine congrArg (Folder.mk f.nextUid) (SortedMap.ext fun u => (hfind u).trans ?_)
    refine Eq.trans ?_ (find?_remove f uids u).symm
    by_cases hu : u ∈ uids
    · rw [if_pos hu, if_pos hu]
    · rw [if_neg hu, if_neg hu]
      rcases hm : f.messages.find? u with _ | m
      · rfl
      · have hnot : m.has .deleted = false := Bool.eq_false_iff.mpr fun h => hu (hmarked u m hm h)
        simp [Option.filter, hnot]

/-! ### Messages that come and go -/

theorem remove_append {uids : UidSet} (h : f.upcoming ∉ uids) (m : Message) :
    (f.append m).remove uids = (f.remove uids).append m := by
  have hmessages : ((f.append m).remove uids).messages = ((f.remove uids).append m).messages := by
    apply SortedMap.ext
    intro u
    have hinserted : ((f.remove uids).append m).messages.find? u =
        if u = f.upcoming then some m else (f.remove uids).messages.find? u := SortedMap.find?_insert ..
    have hbefore : (f.append m).messages.find? u =
        if u = f.upcoming then some m else f.messages.find? u := SortedMap.find?_insert ..
    rw [hinserted, find?_remove, find?_remove, hbefore]
    by_cases hu : u = f.upcoming
    · simp [hu, h]
    · simp [hu]
  exact congrArg (Folder.mk _) hmessages

/-- As long as there are numbers left, it is all the same whether messages are taken away before or
after others are put in. -/
theorem remove_appendAll {uids : UidSet} (h : ∀ u ∈ uids, u.value < f.shelf.next) {ms : List Message}
    (hroom : f.shelf.next + ms.length ≤ UInt32.size) :
    (f.appendAll ms).remove uids = (f.remove uids).appendAll ms := by
  induction ms generalizing f with
  | nil => rfl
  | cons m rest ih =>
    rw [List.length_cons] at hroom
    have hupcoming : f.upcoming.value = f.shelf.next := upcoming_value (by omega)
    have hnew : f.upcoming ∉ uids := fun hmem => Nat.lt_irrefl _ (hupcoming ▸ h _ hmem)
    show ((f.append m).appendAll rest).remove uids = ((f.remove uids).append m).appendAll rest
    rw [← remove_append hnew]
    -- After the last number of all there is no next one, but then nothing more is put in.
    rcases rest with _ | ⟨m', rest⟩
    · rfl
    · have hnext : (f.append m).shelf.next = f.shelf.next + 1 := by
        show max ((f.shelf.next + 1) % UInt32.size) 1 = f.shelf.next + 1
        rw [List.length_cons] at hroom
        rw [Nat.mod_eq_of_lt (by omega)]
        omega
      refine ih (fun u hu => ?_) (by omega)
      rw [hnext]
      exact Nat.lt_succ_of_lt (h u hu)

/-- Messages that are put in take no other away. -/
theorem contains_appendAll {u : Uid} (h : f.messages.contains u = true) (ms : List Message) :
    (f.appendAll ms).messages.contains u = true := by
  induction ms generalizing f with
  | nil => exact h
  | cons m rest ih =>
    refine ih (f := f.append m) ?_
    show ((f.messages.insert f.upcoming m).find? u).isSome = true
    rw [SortedMap.find?_insert]
    split
    · rfl
    · exact h

theorem contains_markDeleted {u : Uid} (h : f.messages.contains u = true) (uids : UidSet) :
    (f.markDeleted uids).messages.contains u = true := by
  show ((f.markDeleted uids).messages.find? u).isSome = true
  rw [find?_markDeleted]
  split
  · rw [Option.isSome_map]
    exact h
  · exact h

end Folder

end Mailroom.Mailstore
