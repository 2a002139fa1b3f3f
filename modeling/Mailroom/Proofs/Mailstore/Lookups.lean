import Mailroom.Proofs.Mailstore.Requests
import Mailroom.Proofs.Mailstore.Message

/-! Looking things up in a mail store.

An operation that only looks things up leaves the store as it was, but for the record of
what was asked. `Looks` says what such an operation finds and which commands it needs: it
fails exactly if the store was told to fail one of them, and then with that command. Two
look-ups in a row are a look-up (`Looks.bind`), so what a search finds follows step by step
from what its requests find. -/
namespace Mailroom.Mailstore

/-! ### Sets of messages -/

namespace Folder
variable {f : Folder} {p q : Message → Bool}

theorem matching_congr (h : ∀ m, p m = q m) : f.matching p = f.matching q := by
  rw [funext h]

theorem matching_inter (f : Folder) (p q : Message → Bool) :
    (f.matching p).inter (f.matching q) = f.matching fun m => p m && q m := by
  apply SortedSet.ext
  intro u
  rw [SortedSet.mem_inter, mem_matching, mem_matching, mem_matching]
  constructor
  · rintro ⟨⟨m, hm, hp⟩, m', hm', hq⟩
    rw [hm] at hm'
    cases hm'
    exact ⟨m, hm, by rw [hp, hq]; rfl⟩
  · rintro ⟨m, hm, hpq⟩
    rw [Bool.and_eq_true] at hpq
    exact ⟨⟨m, hm, hpq.1⟩, m, hm, hpq.2⟩

theorem matching_union (f : Folder) (p q : Message → Bool) :
    (f.matching p).union (f.matching q) = f.matching fun m => p m || q m := by
  apply SortedSet.ext
  intro u
  simp only [SortedSet.mem_union, mem_matching, Bool.or_eq_true, and_or_left, exists_or]

theorem matching_false (f : Folder) : f.matching (fun _ => false) = .empty := by
  apply SortedSet.ext
  intro u
  rw [mem_matching]
  simp

end Folder

/-! ### What a store tells of messages -/

namespace Session

theorem find?_told_from (f : Folder) (attributes : List FetchAttribute) (uids : List Uid)
    (found : Fetched) (u : Uid) :
    (uids.foldl (fun (found : Fetched) uid => match f.messages.find? uid with
      | some m => found.insert uid (m.items uid attributes)
      | none => found) found).find? u =
      if u ∈ uids then ((f.messages.find? u).map (·.items u attributes)).or (found.find? u)
      else found.find? u := by
  induction uids generalizing found with
  | nil => rfl
  | cons v rest ih =>
    rw [List.foldl_cons, ih]
    by_cases hv : u = v
    · subst hv
      rcases hm : f.messages.find? u with _ | m
      · simp
      · simp [SortedMap.find?_insert]
    · have hfound : (match f.messages.find? v with
          | some m => found.insert v (m.items v attributes)
          | none => found).find? u = found.find? u := by
        rcases f.messages.find? v with _ | m
        · rfl
        · simp [SortedMap.find?_insert, hv]
      rw [hfound]
      simp [hv]

/-- A store tells of the messages that it was asked for and has. -/
theorem find?_told (f : Folder) (attributes : List FetchAttribute) (uids : UidSet) (u : Uid) :
    (told f attributes uids).find? u =
      if uids.contains u then (f.messages.find? u).map (·.items u attributes) else none := by
  have h : (told f attributes uids).find? u = _ := find?_told_from f attributes uids.toList .empty u
  simp only [h, SortedMap.find?_empty, Option.or_none, SortedSet.mem_toList, ← SortedSet.contains_iff]

/-- Of messages that meet a condition, those of which something tells are those that meet both
conditions. -/
theorem keySet_told_filter (f : Folder) (attributes : List FetchAttribute) (p q : Message → Bool)
    (keep : List FetchItem → Bool) (hkeep : ∀ m u, keep (m.items u attributes) = q m) :
    ((told f attributes (f.matching p)).filter fun _ items => keep items).keySet =
      f.matching fun m => p m && q m := by
  apply SortedSet.ext
  intro u
  rw [SortedMap.mem_keySet_filter, Folder.mem_matching, find?_told]
  constructor
  · rintro ⟨items, hitems, hk⟩
    by_cases hu : u ∈ f.matching p
    · obtain ⟨m, hm, hp⟩ := Folder.mem_matching.mp hu
      rw [if_pos (SortedSet.contains_iff.mpr hu), hm] at hitems
      cases hitems
      rw [hkeep] at hk
      exact ⟨m, hm, by rw [hp, hk]; rfl⟩
    · rw [if_neg (mt SortedSet.contains_iff.mp hu)] at hitems
      cases hitems
  · rintro ⟨m, hm, hpq⟩
    rw [Bool.and_eq_true] at hpq
    refine ⟨m.items u attributes, ?_, by rw [hkeep]; exact hpq.2⟩
    rw [if_pos (SortedSet.contains_iff.mpr (Folder.mem_matching.mpr ⟨m, hm, hpq.1⟩)), hm]
    rfl

/-! ### Operations that only look -/

/-- The session with another record of what was asked. -/
def logged (s : Session) (log : List String) : Session :=
  { s with server := { s.server with log } }

theorem logged_logged (s : Session) (log log' : List String) :
    (s.logged log).logged log' = s.logged log' := rfl

/-- The operation looks something up in `folder` and finds `a`. The commands that it needs are
those whose failure fails it. -/
structure Looks {α : Type} (folder : String) (op : Mail Session α) (s : Session) (needs : String → Prop)
    (a : α) : Prop where
  finds : (∀ c, s.server.failing = some c → ¬ needs c) → ∃ log, op s = (.ok a, s.logged log)
  fails : ∀ c, s.server.failing = some c → needs c →
    ∃ log, op s = (.error (.queryFailed folder (.rejected (.failing c))), s.logged log)

namespace Looks
variable {α β : Type} {folder : String} {s : Session} {needs needs' : String → Prop} {a : α} {b : β}

theorem congr {op : Mail Session α} (h : Looks folder op s needs a) (hn : ∀ c, needs c ↔ needs' c) :
    Looks folder op s needs' a := by
  rwa [← funext fun c => propext (hn c)]

theorem pure (a : α) : Looks folder (Pure.pure a) s (fun _ => False) a where
  finds _ := ⟨s.server.log, rfl⟩
  fails _ _ h := h.elim

/-- Two look-ups in a row are a look-up that needs what either of them needs. -/
theorem bind {op : Mail Session α} {next : α → Mail Session β} (h : Looks folder op s needs a)
    (hn : ∀ log, Looks folder (next a) (s.logged log) needs' b) :
    Looks folder (op >>= next) s (fun c => needs c ∨ needs' c) b where
  finds hc := by
    obtain ⟨log, ho⟩ := h.finds fun c hf hneed => hc c hf (.inl hneed)
    obtain ⟨log', hb⟩ := (hn log).finds fun c hf hneed => hc c hf (.inr hneed)
    exact ⟨log', by rw [bind_ok ho, hb, logged_logged]⟩
  fails c hf hneed := by
    by_cases h1 : needs c
    · obtain ⟨log, ho⟩ := h.fails c hf h1
      exact ⟨log, bind_error ho⟩
    · have hother : ∀ c', s.server.failing = some c' → ¬ needs c' := by
        intro c' hf'
        rw [hf] at hf'
        cases hf'
        exact h1
      obtain ⟨log, ho⟩ := h.finds hother
      obtain ⟨log', hb⟩ := (hn log).fails c hf (hneed.resolve_left h1)
      exact ⟨log', by rw [bind_ok ho, hb, logged_logged]⟩

/-- Making something of what was found needs nothing more. -/
theorem map {op : Mail Session α} (h : Looks folder op s needs a) (g : α → β) :
    Looks folder (op >>= fun a => Pure.pure (g a)) s needs (g a) :=
  (h.bind fun _ => pure (g a)).congr fun _ => or_iff_left id

/-- A single request. -/
theorem request {op : Op α} {command : Command}
    (h : op s = ((s.verdict command).map fun _ => a, s.asked command)) :
    Looks folder (Mail.query folder op) s (· = command.name) a where
  finds hc := by
    have hv : s.verdict command = .ok () := verdict_ok fun hf => hc _ hf rfl
    rw [hv] at h
    exact ⟨_, Mail.lift_ok h⟩
  fails c hf hneed := by
    subst hneed
    rw [verdict_error hf] at h
    exact ⟨_, Mail.lift_error h⟩

end Looks

end Session

end Mailroom.Mailstore
