import Mailroom.Message.Summary

/-! What is told about a message, in any order.

A summary is put together item by item. Items that tell different things are noted in different places of
the summary (`note_comm`), so if nothing is told twice their order makes no difference (`foldl_note_perm`),
and each of them may as well be the last (`foldl_note_mem`). The latter says which date a summary has
(`date_ofItems`). -/
namespace Mailroom

/-- What the item tells of a message. -/
def FetchItem.topic : FetchItem → FetchAttribute
  | .uid _ => .uid
  | .flags _ => .flags
  | .envelope _ => .envelope
  | .bodyStructure _ => .bodyStructure
  | .size _ => .size
  | .internalDate _ => .internalDate

/-- Nothing that a summary shows is told twice. Identifiers may be. -/
def FetchItem.Unrepeated (items : List FetchItem) : Prop :=
  ∀ topic ∈ Summary.attributes, items.countP (fun item => item.topic = topic) ≤ 1

instance (items : List FetchItem) : Decidable (FetchItem.Unrepeated items) :=
  inferInstanceAs (Decidable (∀ topic ∈ Summary.attributes,
    items.countP (fun item => item.topic = topic) ≤ 1))

namespace Summary
open FetchItem
variable {items items' : List FetchItem} {a b item : FetchItem} {u : Uid}

/-! ### Two items -/

/-- Flags are noted each in its own mark. -/
theorem foldl_noteFlag (flags : List Flag) (s : Summary) : flags.foldl noteFlag s =
    { s with
      seen := s.seen || flags.contains .seen
      answered := s.answered || flags.contains .answered
      flagged := s.flagged || flags.contains .flagged
      draft := s.draft || flags.contains .draft
      deleted := s.deleted || flags.contains .deleted } := by
  induction flags generalizing s with
  | nil => simp
  | cons flag rest ih =>
    rw [List.foldl_cons, ih]
    cases flag <;> simp [noteFlag]

/-- Header fields are noted as subject and, if there is a sender, as address and name. -/
theorem noteEnvelope_eq (s : Summary) (e : Envelope) : noteEnvelope s e =
    { s with
      address := e.from.head?.elim s.address fun sender => sender.email?.getD ""
      name := e.from.head?.elim s.name fun sender => sender.name.filter fun name => !Blank.isBlankText name
      subject := e.subject.getD "" } := by
  unfold noteEnvelope
  rcases e.from with _ | ⟨sender, rest⟩ <;> rfl

/-- Different things are noted in different places. -/
theorem note_comm (h : a.topic ≠ b.topic) (d : Draft) : note (note d a) b = note (note d b) a := by
  cases a <;> cases b <;>
    first
    | exact absurd rfl h
    | simp only [note, foldl_noteFlag, noteEnvelope_eq]

theorem mem_attributes {topic : FetchAttribute} (h : topic ≠ .uid) : topic ∈ attributes := by
  cases topic with
  | uid => exact absurd rfl h
  | _ => decide

/-- Identifiers are not noted. -/
theorem note_uid (h : item.topic = .uid) (d : Draft) : note d item = d := by
  cases item with
  | uid u => rfl
  | _ => cases h

/-- Two items that tell the same are one. -/
theorem eq_of_topic (h : Unrepeated items) (ha : a ∈ items) (hb : b ∈ items)
    (hsame : a.topic = b.topic) (hnew : a.topic ≠ .uid) : a = b := by
  have hcount := h a.topic (mem_attributes hnew)
  rw [List.countP_eq_length_filter] at hcount
  have ha' : a ∈ items.filter fun item => item.topic = a.topic := by simp [ha]
  have hb' : b ∈ items.filter fun item => item.topic = a.topic := by simp [hb, hsame]
  match hfilter : items.filter fun item => item.topic = a.topic with
  | [] => simp [hfilter] at ha'
  | [c] =>
    rw [hfilter, List.mem_singleton] at ha' hb'
    rw [ha', hb']
  | _ :: _ :: _ =>
    rw [hfilter] at hcount
    simp at hcount

/-! ### All items -/

/-- Items that tell nothing twice may be noted in any order. -/
theorem foldl_note_perm (h : Unrepeated items) (hperm : items.Perm items') (d : Draft) :
    items'.foldl note d = items.foldl note d := by
  refine (hperm.foldl_eq' (fun a ha b hb d => ?_) d).symm
  by_cases hsame : a.topic = b.topic
  · by_cases hnew : a.topic = .uid
    · rw [note_uid hnew, note_uid (hsame.symm.trans hnew), note_uid hnew]
    · rw [eq_of_topic h ha hb hsame hnew]
  · exact note_comm hsame d

/-- Each of them may be noted last. -/
theorem foldl_note_mem (h : Unrepeated items) (hmem : item ∈ items) (d : Draft) :
    ∃ before, items.foldl note d = note before item := by
  obtain ⟨front, back, rfl⟩ := List.append_of_mem hmem
  have hlast : (front ++ item :: back).Perm ((front ++ back) ++ [item]) :=
    List.perm_middle.trans (List.perm_append_singleton item (front ++ back)).symm
  refine ⟨(front ++ back).foldl note d, ?_⟩
  rw [← foldl_note_perm h hlast, List.foldl_append]
  rfl

theorem ofItems_perm (h : Unrepeated items) (hperm : items.Perm items') (u : Uid) :
    ofItems u items' = ofItems u items := by
  unfold ofItems
  rw [foldl_note_perm h hperm]

section
/-! Something in a draft that is noted from one kind of item only, and then is what `own` says of the item. -/
variable {α : Type} (get : Draft → Option α) {own : FetchItem → Option (Option α)} {topic : FetchAttribute}
  {d : Draft}

theorem noted_untold (hnote : ∀ d item, get (note d item) = (own item).getD (get d))
    (hnone : ∀ item ∈ items, own item = none) (d : Draft) : get (items.foldl note d) = get d := by
  induction items generalizing d with
  | nil => rfl
  | cons item rest ih =>
    obtain ⟨hitem, hrest⟩ := List.forall_mem_cons.mp hnone
    rw [List.foldl_cons, ih hrest, hnote, hitem, Option.getD_none]

/-- It is what the one item of this kind tells. -/
theorem noted_iff (hnote : ∀ d item, get (note d item) = (own item).getD (get d))
    (hown : ∀ item, own item ≠ none → item.topic = topic) (hnew : topic ≠ .uid) (h : Unrepeated items)
    (hd : get d = none) (x : α) :
    get (items.foldl note d) = some x ↔ ∃ item ∈ items, own item = some (some x) := by
  by_cases hnone : ∀ item ∈ items, own item = none
  · rw [noted_untold get hnote hnone, hd]
    constructor
    · nofun
    · rintro ⟨item, hmem, htold⟩
      rw [hnone item hmem] at htold
      cases htold
  · obtain ⟨item, hmem, hsome⟩ : ∃ item ∈ items, own item ≠ none := by simpa using hnone
    obtain ⟨told, htold⟩ := Option.ne_none_iff_exists'.mp hsome
    obtain ⟨before, hlast⟩ := foldl_note_mem h hmem d
    rw [hlast, hnote, htold, Option.getD_some]
    constructor
    · rintro rfl
      exact ⟨item, hmem, htold⟩
    · rintro ⟨item', hmem', htold'⟩
      have htopic := hown item hsome
      have htopic' := hown item' (by rw [htold']; exact Option.some_ne_none _)
      have hsame : item = item' :=
        eq_of_topic h hmem hmem' (htopic.trans htopic'.symm) (by rwa [htopic])
      rw [hsame, htold'] at htold
      exact (Option.some.inj htold).symm

end

/-! ### The date -/

/-- The server tells that it received the message then. -/
def ReceivedAt (items : List FetchItem) (t : Timestamp) : Prop :=
  ∃ text, .internalDate text ∈ items ∧ Calendar.readInternal? text = some t

/-- The header tells that the message was sent then. -/
def SentAt (items : List FetchItem) (t : Timestamp) : Prop :=
  ∃ e text, .envelope e ∈ items ∧ e.date = some text ∧ Calendar.readHeader? text = some t

/-- What an item says of the time of receipt, if that is what it tells. -/
def receiptIn : FetchItem → Option (Option Timestamp)
  | .internalDate text => some (Calendar.readInternal? text)
  | _ => none

/-- What an item says of the time of sending, if it tells header fields. -/
def sendingIn : FetchItem → Option (Option Timestamp)
  | .envelope e => some (e.date.bind Calendar.readHeader?)
  | _ => none

theorem noted_received (h : Unrepeated items) (t : Timestamp) :
    (items.foldl note ({ uid := u }, none)).1.date = some t ↔ ReceivedAt items t := by
  have hnote : ∀ d item, (note d item).1.date = (receiptIn item).getD d.1.date := by
    intro d item
    cases item <;> simp [note, receiptIn, foldl_noteFlag, noteEnvelope_eq]
  have hown : ∀ item, receiptIn item ≠ none → item.topic = .internalDate := by
    intro item hsome
    cases item <;> first | rfl | exact absurd rfl hsome
  rw [noted_iff (fun d => d.1.date) hnote hown (by decide) h rfl t]
  constructor
  · rintro ⟨item, hmem, htold⟩
    cases item with
    | internalDate text => exact ⟨text, hmem, Option.some.inj htold⟩
    | _ => cases htold
  · rintro ⟨text, hmem, hread⟩
    exact ⟨.internalDate text, hmem, congrArg some hread⟩

theorem noted_sent (h : Unrepeated items) (t : Timestamp) :
    (items.foldl note ({ uid := u }, none)).2 = some t ↔ SentAt items t := by
  have hnote : ∀ d item, (note d item).2 = (sendingIn item).getD d.2 := by
    intro d item
    cases item <;> simp only [note, sendingIn, Option.getD_some, Option.getD_none]
  have hown : ∀ item, sendingIn item ≠ none → item.topic = .envelope := by
    intro item hsome
    cases item <;> first | rfl | exact absurd rfl hsome
  rw [noted_iff (fun d => d.2) hnote hown (by decide) h rfl t]
  constructor
  · rintro ⟨item, hmem, htold⟩
    cases item with
    | envelope e =>
      obtain ⟨text, htext, hread⟩ := Option.bind_eq_some_iff.mp (Option.some.inj htold)
      exact ⟨e, text, hmem, htext, hread⟩
    | _ => cases htold
  · rintro ⟨e, text, hmem, htext, hread⟩
    refine ⟨.envelope e, hmem, ?_⟩
    simp only [sendingIn, htext, Option.bind_some, hread]

/-- The date of a message is when it was received, if that is told, and else when it was sent. -/
theorem date_ofItems (h : Unrepeated items) (t : Timestamp) : (ofItems u items).date = some t ↔
    ReceivedAt items t ∨ (∀ t', ¬ ReceivedAt items t') ∧ SentAt items t := by
  have hdate : (ofItems u items).date =
      (items.foldl note ({ uid := u }, none)).1.date.or (items.foldl note ({ uid := u }, none)).2 := rfl
  rw [hdate, Option.or_eq_some_iff, noted_received h, noted_sent h, Option.eq_none_iff_forall_ne_some]
  simp only [ne_eq, noted_received h]

end Summary

end Mailroom
