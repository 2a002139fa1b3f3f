import Mailroom.Proofs.Imap.Stretches
import Mailroom.Proofs.Message.Items
import Mailroom.Proofs.Session.Hearing
import Mailroom.Proofs.Session.Mirrored

/-! Responses about messages, in another order.

A server tells about messages in any order, and of each message in any order. `Reordered` says which frames
differ from others in nothing else. A command that reads them gets the same answer, except that responses
about different messages may have changed places and items in them as well (`converse_reordered`), and what
a fetch is told then sums up to the same (`fetch_reordered`). A response counts for the message whose
identifier it tells first, so this one has to stay the first (`summed_in_any_order`). -/
namespace Mailroom

namespace Summary

/-- The draft with all items noted. -/
def noteAll (items : List FetchItem) (d : Draft) : Draft := items.foldl note d

end Summary

namespace Connection
open ImapSession Summary FetchItem

/-- Frames of which some come in another order: the items in a response about a message, as long as it is
about the same message, and a response about a message among others that tell nothing of that message. -/
inductive Reordered : List Bytes → List Bytes → Prop
  | nil : Reordered [] []
  | cons (frame : Bytes) {frames frames' : List Bytes} (h : Reordered frames frames') :
    Reordered (frame :: frames) (frame :: frames')
  | items {frame frame' : Bytes} {frames frames' : List Bytes} {n : Nat} {items items' : List FetchItem}
    (hframe : Response.read frame = .ok (.untagged (.fetch n items)))
    (hframe' : Response.read frame' = .ok (.untagged (.fetch n items')))
    (hperm : items.Perm items') (hunrepeated : Unrepeated items) (huid : uidOf items' = uidOf items)
    (h : Reordered frames frames') : Reordered (frame :: frames) (frame' :: frames')
  | frames {frame other : Bytes} {frames frames' : List Bytes} {n : Nat} {items : List FetchItem} {data : Untagged}
    (hframe : Response.read frame = .ok (.untagged (.fetch n items)))
    (hother : Response.read other = .ok (.untagged data))
    (hdistinct : ∀ m items', data = .fetch m items' → ∀ u, uidOf items = some u → uidOf items' ≠ some u)
    (h : Reordered frames frames') : Reordered (frame :: other :: frames) (other :: frame :: frames')
  | trans {frames frames' frames'' : List Bytes} (h : Reordered frames frames')
    (h' : Reordered frames' frames'') : Reordered frames frames''

theorem Reordered.refl (frames : List Bytes) : Reordered frames frames := by
  induction frames with
  | nil => exact .nil
  | cons frame frames ih => exact .cons frame ih

/-! ### What is told of one message -/

/-- What the data does to the draft of a message, if it is about the message. -/
def deed? (u : Uid) : Untagged → Option (Draft → Draft)
  | .fetch _ items => if uidOf items = some u then some (noteAll items) else none
  | _ => none

/-- What data does to the draft of a message, in order. -/
def deeds (u : Uid) (data : List Untagged) : List (Draft → Draft) := data.filterMap (deed? u)

theorem deeds_cons (u : Uid) (data : Untagged) (rest : List Untagged) :
    deeds u (data :: rest) = (deed? u data).toList ++ deeds u rest := by
  rw [deeds, List.filterMap_cons]
  rcases deed? u data with _ | deed <;> rfl

theorem deed?_perm {n : Nat} {items items' : List FetchItem} (hperm : items.Perm items')
    (hunrepeated : Unrepeated items) (huid : uidOf items' = uidOf items) (u : Uid) :
    deed? u (.fetch n items') = deed? u (.fetch n items) := by
  have hnote : noteAll items' = noteAll items := funext (foldl_note_perm hunrepeated hperm)
  rw [deed?, deed?, huid, hnote]

/-- Data about a message and data that tells nothing of that message may change places. -/
theorem deeds_swap {n : Nat} {items : List FetchItem} {data : Untagged}
    (hdistinct : ∀ m items', data = .fetch m items' → ∀ u, uidOf items = some u → uidOf items' ≠ some u)
    (u : Uid) (rest : List Untagged) :
    deeds u (.fetch n items :: data :: rest) = deeds u (data :: .fetch n items :: rest) := by
  by_cases hu : uidOf items = some u
  · have hnone : deed? u data = none := by
      unfold deed?
      split
      · next m items' => exact if_neg (hdistinct m items' rfl u hu)
      · rfl
    simp [deeds, hnone, List.filterMap_cons]
  · have hnone : deed? u (.fetch n items) = none := if_neg hu
    simp [deeds, hnone, List.filterMap_cons]

theorem deeds_reverse {u : Uid} {told told' : List Untagged} (h : deeds u told' = deeds u told) :
    deeds u told'.reverse = deeds u told.reverse := by
  simp only [deeds, List.filterMap_reverse] at h ⊢
  rw [h]

/-! ### What a command is told -/

/-- The exchanges stand alike, and have been told the same of every message. -/
structure Exchange.ToldAlike (x y : Exchange) : Prop where
  unsent : y.unsent = x.unsent
  farewell : y.farewell = x.farewell
  malformed : y.malformed = x.malformed
  deeds : ∀ u, deeds u y.untagged = deeds u x.untagged

theorem Exchange.ToldAlike.refl (x : Exchange) : ToldAlike x x := ⟨rfl, rfl, rfl, fun _ => rfl⟩

/-- The same error, or answers that tell the same of every message. -/
inductive AnswersAlike : Except ImapError Answer → Except ImapError Answer → Prop
  | error (e : ImapError) : AnswersAlike (.error e) (.error e)
  | ok {answer answer' : Answer} (hcode : answer'.code = answer.code)
    (hdeeds : ∀ u, deeds u answer'.untagged = deeds u answer.untagged) :
    AnswersAlike (.ok answer) (.ok answer')

theorem AnswersAlike.trans {a b c : Except ImapError Answer} (h : AnswersAlike a b) (h' : AnswersAlike b c) :
    AnswersAlike a c := by
  cases h with
  | error e => exact h'
  | ok hcode hdeeds =>
    cases h' with
    | ok hcode' hdeeds' => exact .ok (hcode'.trans hcode) fun u => (hdeeds' u).trans (hdeeds u)

/-- The connections differ in the order of frames to come, if at all. -/
structure Reorders (c d : Connection) : Prop where
  incoming : Reordered c.incoming d.incoming
  others : d = { c with incoming := d.incoming }

theorem Reorders.trans {c d e : Connection} (h : Reorders c d) (h' : Reorders d e) : Reorders c e where
  incoming := h.incoming.trans h'.incoming
  others := by
    rw [h'.others, h.others]

section
variable {x y : Exchange} {c d : Connection} {frames frames' : List Bytes} {command : Command} {tag : String}

theorem Exchange.ToldAlike.note (h : ToldAlike x y) (data : Untagged) : ToldAlike (x.note data) (y.note data) where
  unsent := h.unsent
  farewell := by
    unfold Exchange.note
    split <;> first | rfl | exact h.farewell
  malformed := h.malformed
  deeds u := by
    show Connection.deeds u (data :: y.untagged) = Connection.deeds u (data :: x.untagged)
    have hsame := h.deeds u
    simp only [Connection.deeds, List.filterMap_cons] at hsame ⊢
    rw [hsame]

theorem Exchange.ToldAlike.finish (h : ToldAlike x y) (condition : Condition) (code : Option Code)
    (text : String) : AnswersAlike (x.finish condition code text) (y.finish condition code text) := by
  unfold Exchange.finish
  rw [h.unsent, h.malformed]
  rcases check condition text with e | ⟨⟩
  · exact .error e
  · rcases x.unsent with _ | ⟨part, unsent⟩
    · rcases x.malformed with _ | fault
      · exact .ok rfl fun u => deeds_reverse (h.deeds u)
      · exact .error _
    · exact .error _

theorem Exchange.ToldAlike.cutOff (h : ToldAlike x y) (ending : FrameError) :
    y.cutOff ending = x.cutOff ending := by
  unfold Exchange.cutOff
  rw [h.farewell]

/-- What is to come plays no part in what a connection notices. -/
theorem notice_incoming (c : Connection) (incoming : List Bytes) (code : Option Code) :
    ({ c with incoming } : Connection).notice code = { c.notice code with incoming } := by
  unfold notice
  split <;> rfl

theorem observe_incoming (c : Connection) (incoming : List Bytes) (data : Untagged) :
    ({ c with incoming } : Connection).observe data = { c.observe data with incoming } := by
  unfold observe
  split <;> first | rfl | exact notice_incoming c incoming _

/-- A response about a message is kept, and nothing else comes of it. -/
theorem converse_fetch {frame : Bytes} {n : Nat} {items : List FetchItem}
    (h : Response.read frame = .ok (.untagged (.fetch n items))) :
    converse command tag x c (frame :: frames) = converse command tag (x.note (.fetch n items)) c frames := by
  simp [converse, hear, h, observe]

theorem converse_told {frame : Bytes} {data : Untagged} (h : Response.read frame = .ok (.untagged data)) :
    converse command tag x c (frame :: frames) = converse command tag (x.note data) (c.observe data) frames := by
  simp [converse, hear, h]

/-- A command gets answers that are alike. -/
theorem converse_reordered (h : Reordered frames frames') (hx : x.ToldAlike y) (c : Connection)
    (incoming : List Bytes) :
    AnswersAlike (converse command tag x c frames).1
        (converse command tag y { c with incoming } frames').1 ∧
      Reorders (converse command tag x c frames).2 (converse command tag y { c with incoming } frames').2 := by
  induction h generalizing x y c incoming with
  | nil =>
    refine ⟨?_, .nil, rfl⟩
    simp only [converse, hx.cutOff]
    exact .error _
  | cons frame h ih =>
    simp only [converse]
    rcases hear tag frame with ⟨⟨other, condition, code, text⟩ | data | text⟩ | fault | fault | _
    · dsimp only
      rw [hx.unsent]
      refine ⟨hx.finish condition code text, h, ?_⟩
      split
      · rw [notice_incoming c]
      · rfl
    · dsimp only
      rw [observe_incoming c incoming]
      exact ih (hx.note data) (c.observe data) incoming
    · dsimp only
      rw [hx.unsent]
      rcases x.unsent with _ | ⟨part, unsent⟩
      · exact ⟨.error _, h, rfl⟩
      · have hsent : Exchange.ToldAlike { x with unsent } { y with unsent } :=
          ⟨rfl, hx.farewell, hx.malformed, hx.deeds⟩
        exact ih hsent (c.write part) incoming
    · dsimp only
      rw [hx.malformed]
      have hnoted : Exchange.ToldAlike { x with malformed := x.malformed.or (some fault) }
          { y with malformed := x.malformed.or (some fault) } := ⟨hx.unsent, hx.farewell, rfl, hx.deeds⟩
      exact ih hnoted c incoming
    · exact ⟨.error _, h, rfl⟩
    · exact ih hx c incoming
  | @items frame frame' frames frames' n items items' hframe hframe' hperm hunrepeated huid h ih =>
    rw [converse_fetch hframe, converse_fetch hframe']
    have hdeeds : ∀ u, deeds u (.fetch n items' :: y.untagged) = deeds u (.fetch n items :: x.untagged) := by
      intro u
      rw [deeds_cons, deeds_cons, deed?_perm hperm hunrepeated huid, hx.deeds]
    have hnoted : Exchange.ToldAlike (x.note (.fetch n items)) (y.note (.fetch n items')) :=
      ⟨hx.unsent, hx.farewell, hx.malformed, hdeeds⟩
    exact ih hnoted c incoming
  | @frames frame other frames frames' n items data hframe hother hdistinct h ih =>
    rw [converse_fetch hframe, converse_told hother, converse_told hother, converse_fetch hframe,
      observe_incoming c incoming]
    have hafter := (hx.note (.fetch n items)).note data
    have hdeeds : ∀ u, deeds u (.fetch n items :: data :: y.untagged) =
        deeds u (data :: .fetch n items :: x.untagged) := by
      intro u
      rw [deeds_swap hdistinct]
      exact hafter.deeds u
    have hnoted : Exchange.ToldAlike ((x.note (.fetch n items)).note data) ((y.note data).note (.fetch n items)) :=
      ⟨hafter.unsent, hafter.farewell, hafter.malformed, hdeeds⟩
    exact ih hnoted (c.observe data) incoming
  | @trans frames frames' frames'' h h' ih ih' =>
    obtain ⟨hanswer, hafter⟩ := ih hx c incoming
    obtain ⟨hanswer', hafter'⟩ := ih' (.refl y) { c with incoming } incoming
    exact ⟨hanswer.trans hanswer', hafter.trans hafter'⟩

theorem execute_reordered (h : c.Reorders d) (command : Command) :
    AnswersAlike (c.execute command).1 (d.execute command).1 ∧
      Reorders (c.execute command).2 (d.execute command).2 := by
  obtain ⟨hincoming, hothers⟩ := h
  generalize d.incoming = incoming at hincoming hothers
  subst hothers
  simp only [execute, has]
  rcases command.request c.tags.current (c.capabilities.contains .literalPlus) with _ | ⟨part, unsent⟩
  · exact converse_reordered hincoming (.refl _) { c with tags := c.tags.advance } incoming
  · exact converse_reordered hincoming (.refl _) ({ c with tags := c.tags.advance }.write part) incoming

end

end Connection

/-! ### What is gathered -/

namespace ImapSession
open Connection Summary

/-- The responses in what the server told. -/
def responses (told : List Untagged) : List (List FetchItem) :=
  told.filterMap fun
    | .fetch _ items => some items
    | _ => none

theorem deeds_eq (u : Uid) (told : List Untagged) :
    deeds u told = (responsesAbout u (responses told)).map noteAll := by
  induction told with
  | nil => rfl
  | cons data rest ih =>
    rw [deeds_cons, ih]
    cases data with
    | fetch n items =>
      show (if uidOf items = some u then some (noteAll items) else none).toList ++ _ =
        (responsesAbout u (items :: responses rest)).map noteAll
      by_cases hu : uidOf items = some u <;> simp [responsesAbout, hu]
    | _ => rfl

theorem noteAll_flatten (about : List (List FetchItem)) (d : Draft) :
    noteAll about.flatten d = (about.map noteAll).foldl (fun d deed => deed d) d := by
  induction about generalizing d with
  | nil => rfl
  | cons items rest ih =>
    rw [List.flatten_cons, List.map_cons, List.foldl_cons, ← ih]
    exact List.foldl_append

/-- What is gathered does the same to the draft of each message as what was told. -/
theorem find?_gathered (told : List Untagged) (u : Uid) :
    (((responses told).foldl gather .empty).find? u).map noteAll = match deeds u told with
      | [] => none
      | deeds => some fun d => deeds.foldl (fun d deed => deed d) d := by
  rw [find?_gather, deeds_eq]
  rcases responsesAbout u (responses told) with _ | ⟨items, rest⟩
  · rfl
  · exact congrArg some (funext fun d => noteAll_flatten (items :: rest) d)

/-- The summaries of all that is told. -/
def sumUp (told : Fetched) : List Summary := told.entries.map fun (uid, items) => Summary.ofItems uid items

/-- They depend only on what the items do to drafts. -/
theorem sumUp_congr {told told' : Fetched}
    (h : ∀ u, (told'.find? u).map noteAll = (told.find? u).map noteAll) : sumUp told' = sumUp told := by
  refine SortedMap.map_entries_congr (f := Summary.ofItems) fun u => ?_
  let summary (deed : Draft → Draft) : Summary :=
    let d := deed ({ uid := u }, none)
    { d.1 with date := d.1.date.or d.2 }
  have hsummary : ∀ told : Fetched, (told.find? u).map (Summary.ofItems u) =
      ((told.find? u).map noteAll).map summary := by
    intro told
    rw [Option.map_map]
    rfl
  rw [hsummary, hsummary, h]

/-- The sessions differ in the order of frames to come, if at all. -/
structure Reorders (s t : ImapSession) : Prop where
  state : t.state = s.state
  connection : s.connection.Reorders t.connection

section
variable (uids : UidSet) (attributes : List FetchAttribute)

/-- The summaries of what responses tell together. -/
def sumUpAll (responses : List (List FetchItem)) : List Summary := sumUp (responses.foldl gather .empty)

theorem talk_fetch (s : ImapSession) : talk (Client.fetch uids attributes) s =
    let (answer, connection) := s.connection.execute (.fetch uids attributes)
    ((answer.map fun answer => responses answer.untagged).mapError .imap, { s with connection }) := by
  have hask : Client.fetch uids attributes s.connection =
      let (answer, connection) := s.connection.execute (.fetch uids attributes)
      (answer.map fun answer => responses answer.untagged, connection) := by
    rw [Client.fetch, bind_run, Client.ask]
    rcases s.connection.execute (.fetch uids attributes) with ⟨_ | answer, connection⟩ <;> rfl
  rw [talk, hask]

/-- Answers that are alike are summed up the same. -/
theorem sumUpAll_alike {answer answer' : Except ImapError Answer} (h : AnswersAlike answer answer') :
    answer'.map (fun answer => sumUpAll (responses answer.untagged)) =
      answer.map fun answer => sumUpAll (responses answer.untagged) := by
  cases h with
  | error e => rfl
  | ok hcode hdeeds =>
    refine congrArg Except.ok (sumUp_congr fun u => ?_)
    rw [find?_gathered, find?_gathered, hdeeds]

theorem talk_reordered : Alike Reorders (sumUpAll <$> talk (Client.fetch uids attributes))
    (sumUpAll <$> talk (Client.fetch uids attributes)) := by
  intro s t h
  obtain ⟨hanswer, hafter⟩ := execute_reordered h.connection (.fetch uids attributes)
  have hsame := sumUpAll_alike hanswer
  have hresult : ∀ answer : Except ImapError Answer,
      ((answer.map fun answer => responses answer.untagged).mapError SessionError.imap).map sumUpAll =
        (answer.map fun answer => sumUpAll (responses answer.untagged)).mapError .imap := by
    rintro (_ | _) <;> rfl
  rw [map_run, map_run, talk_fetch, talk_fetch]
  refine ⟨?_, h.state, hafter⟩
  dsimp only
  rw [hresult, hresult, hsame]

theorem requireFolder_reordered : Alike Reorders requireFolder requireFolder := by
  intro s t h
  rw [requireFolder_run, requireFolder_run, h.state]
  exact ⟨rfl, h⟩

/-- What is told about the given messages, summed up. -/
def fetchSummaries : SessionM ImapSession (List Summary) := sumUp <$> MailSession.fetch uids attributes

/-- Fetched messages are summed up the same, and so are those that are fetched later. -/
theorem fetch_reordered : Alike Reorders (fetchSummaries uids attributes) (fetchSummaries uids attributes) := by
  have hfetch : fetchSummaries uids attributes =
      if uids.isEmpty then pure (sumUp .empty)
      else requireFolder >>= fun _ => sumUpAll <$> talk (Client.fetch uids attributes) := by
    show sumUp <$> fetch uids attributes = _
    unfold fetch
    split
    · rfl
    · simp only [map_eq_pure_bind, bind_assoc, pure_bind, sumUpAll]
  rw [hfetch]
  exact .ite (.pure _) (requireFolder_reordered.bind fun _ => talk_reordered uids attributes)

end

/-! ### Any order -/

open FetchItem Response

theorem uidOf_eq_none_iff {items : List FetchItem} : uidOf items = none ↔ ∀ u, .uid u ∉ items := by
  rw [uidOf, List.findSome?_eq_none_iff]
  constructor
  · exact fun hnone u hmem => nomatch hnone _ hmem
  · intro hnone item hmem
    cases item with
    | uid u => exact absurd hmem (hnone u)
    | _ => rfl

theorem mem_of_uidOf {items : List FetchItem} {u : Uid} (h : uidOf items = some u) : .uid u ∈ items := by
  obtain ⟨item, hmem, htold⟩ := List.exists_of_findSome?_eq_some h
  cases item with
  | uid v =>
    cases htold
    exact hmem
  | _ => cases htold

/-- Items that tell one identifier tell it in any order. -/
theorem uidOf_perm {items items' : List FetchItem} (h : ∀ u v, .uid u ∈ items → .uid v ∈ items → u = v)
    (hperm : items.Perm items') : uidOf items' = uidOf items := by
  rcases hu : uidOf items with _ | u
  · exact uidOf_eq_none_iff.mpr fun u hmem => uidOf_eq_none_iff.mp hu u (hperm.mem_iff.mpr hmem)
  · rcases hv : uidOf items' with _ | v
    · exact absurd (hperm.mem_iff.mp (mem_of_uidOf hu)) (uidOf_eq_none_iff.mp hv u)
    · rw [h u v (mem_of_uidOf hu) (hperm.mem_iff.mpr (mem_of_uidOf hv))]

/-- The order in which a server tells about messages makes no difference. A message is summed up the same in
any order of the items about it, if nothing is told twice; its date is when it was received, if that is told,
and else when it was sent. Written in another order, a response tells the same items in another order, about
the same message unless several are named, where the first counts. And as long as responses are about the same
messages, what is fetched is summed up the same if items in them, and responses about different messages, come
in another order, and so is what is fetched later. -/
theorem summed_in_any_order :
    (∀ (u : Uid) (items items' : List FetchItem), Unrepeated items → items.Perm items' →
      Summary.ofItems u items' = Summary.ofItems u items) ∧
    (∀ (u : Uid) (items : List FetchItem) (t : Timestamp), Unrepeated items →
      ((Summary.ofItems u items).date = some t ↔
        ReceivedAt items t ∨ (∀ t', ¬ ReceivedAt items t') ∧ SentAt items t)) ∧
    (∀ (n : Nat) (stretches stretches' : List (List Value × List FetchItem)) (bytes bytes' : Bytes),
      n < UInt32.size → (∀ s ∈ stretches, IsStretch s.1 s.2) → stretches.Perm stretches' →
      Stretched n stretches bytes → Stretched n stretches' bytes' →
      bytes.length < UInt64.size → bytes'.length < UInt64.size →
      ∃ items items', Response.read (bytes ++ Octet.crlf) = .ok (.untagged (.fetch n items)) ∧
        Response.read (bytes' ++ Octet.crlf) = .ok (.untagged (.fetch n items')) ∧ items.Perm items' ∧
        ((∀ u v, .uid u ∈ items → .uid v ∈ items → u = v) → uidOf items' = uidOf items)) ∧
    (∀ s t : ImapSession, s.Reorders t → ∀ (uids : UidSet) (attributes : List FetchAttribute),
      (fetchSummaries uids attributes s).1 =
        (fetchSummaries uids attributes t).1 ∧
      Reorders (fetchSummaries uids attributes s).2
        (fetchSummaries uids attributes t).2) := by
  refine ⟨fun u items items' h hperm => Summary.ofItems_perm h hperm u, fun u items t h => date_ofItems h t, ?_,
    fun s t h uids attributes => fetch_reordered uids attributes s t h⟩
  intro n stretches stretches' bytes bytes' hn hstretches hperm h h' hend hend'
  obtain ⟨items, items', hread, hread', hitems⟩ := read_perm hn hstretches hperm h h' hend hend'
  exact ⟨items, items', hread, hread', hitems, fun hsame => uidOf_perm hsame hitems⟩

/-- A session in the inbox, about to be told this. -/
def hearing (lines : List String) : ImapSession :=
  ⟨{ incoming := lines.map Utf8.encode, ending := .closed }, .opened "INBOX"⟩

/-- Two messages, of which the first was seen. -/
def inTurn : ImapSession :=
  hearing ["* 1 FETCH (UID 1 FLAGS (\\Seen))\r\n", "* 2 FETCH (UID 2 FLAGS () RFC822.SIZE 42)\r\n",
    "A0001 OK done\r\n"]

/-- The same, but the second comes first, and its size and flags before its identifier. -/
def otherwise : ImapSession :=
  hearing ["* 2 FETCH (RFC822.SIZE 42 FLAGS () UID 2)\r\n", "* 1 FETCH (UID 1 FLAGS (\\Seen))\r\n",
    "A0001 OK done\r\n"]

/-- A response about the second message. -/
def aboutSecond (stretches : List (List Value × List FetchItem)) : Bytes :=
  Octet.star :: Octet.space :: (Octet.ofDigits 2 ++ Octet.space :: (Utf8.encode "FETCH" ++ Octet.space ::
    Octet.openParen :: (Value.wireAll (stretches.flatMap Prod.fst) ++ [Octet.closeParen])))

/-- What it tells of its flags and its size. -/
def flagsAndSize : List (List Value × List FetchItem) :=
  [([.atom "FLAGS", .list []], [.flags []]), ([.atom "RFC822.SIZE", .number 42], [.size 42])]

theorem stretched_aboutSecond {stretches : List (List Value × List FetchItem)}
    (h : Value.areReadable Cursor.maxDepth (stretches.flatMap Prod.fst) = true) :
    Stretched 2 stretches (aboutSecond stretches) :=
  .line (by decide +kernel) ((Value.areReadable_iff _ _).mp h) (Value.separated_wireAll _)

theorem stretch_flagsAndSize : ∀ s ∈ flagsAndSize, IsStretch s.1 s.2 := by
  have hflags : IsStretch [.atom "FLAGS", .list []] (some (FetchItem.flags [])).toList := .pair rfl nofun rfl
  have hsize : IsStretch [.atom "RFC822.SIZE", .number 42] (some (FetchItem.size 42)).toList := .pair rfl nofun rfl
  exact List.forall_mem_cons.mpr ⟨hflags, List.forall_mem_singleton.mpr hsize⟩

theorem inTurn_reorders : inTurn.Reorders otherwise := by
  let second : Uid := ⟨2, by decide, by decide⟩
  have hfirst : Response.read (Utf8.encode "* 1 FETCH (UID 1 FLAGS (\\Seen))\r\n") =
      .ok (.untagged (.fetch 1 [.uid .least, .flags [.seen]])) := rfl
  have hsecond : Response.read (Utf8.encode "* 2 FETCH (UID 2 FLAGS () RFC822.SIZE 42)\r\n") =
      .ok (.untagged (.fetch 2 [.uid second, .flags [], .size 42])) := rfl
  have hother : Response.read (Utf8.encode "* 2 FETCH (RFC822.SIZE 42 FLAGS () UID 2)\r\n") =
      .ok (.untagged (.fetch 2 [.size 42, .flags [], .uid second])) := rfl
  have hdistinct : ∀ m items', Untagged.fetch 2 [.uid second, .flags [], .size 42] = .fetch m items' →
      ∀ u, uidOf [.uid .least, .flags [.seen]] = some u → uidOf items' ≠ some u := by
    rintro m items' ⟨⟩ u hu
    cases hu
    decide
  have hperm : [FetchItem.uid second, .flags [], .size 42].Perm [.size 42, .flags [], .uid second] :=
    List.reverse_perm _ |>.symm
  refine ⟨rfl, ?_, rfl⟩
  exact (Reordered.frames hfirst hsecond hdistinct (.refl _)).trans
    (.items hsecond hother hperm (by decide) rfl (.refl _))

/-- Both sessions sum up two messages, and the second is written in either order. -/
theorem summed_otherwise :
    Summary.ofItems .least [.size 42, .flags [.seen]] = Summary.ofItems .least [.flags [.seen], .size 42] ∧
    (∃ t, Calendar.readInternal? "01-Jan-2024 10:00:00 +0000" = some t ∧
      (Summary.ofItems .least [.flags [], .internalDate "01-Jan-2024 10:00:00 +0000"]).date = some t) ∧
    (∃ items items', Response.read (Utf8.encode "* 2 FETCH (FLAGS () RFC822.SIZE 42)\r\n") =
        .ok (.untagged (.fetch 2 items)) ∧
      Response.read (Utf8.encode "* 2 FETCH (RFC822.SIZE 42 FLAGS ())\r\n") =
        .ok (.untagged (.fetch 2 items')) ∧ items.Perm items') ∧
    ∃ summaries,
      (fetchSummaries (.ofList [.least]) [.flags] inTurn).1 = .ok summaries ∧
      (fetchSummaries (.ofList [.least]) [.flags] otherwise).1 = .ok summaries ∧
      (summaries.map fun s => (s.uid.value, s.seen, s.size)) = [(1, true, 0), (2, false, 42)] := by
  obtain ⟨hitems, hdate, hwritten, hsessions⟩ := summed_in_any_order
  refine ⟨hitems _ _ _ (by decide) (.swap _ _ _), ?_, ?_, ?_⟩
  · obtain ⟨t, ht⟩ : ∃ t, Calendar.readInternal? "01-Jan-2024 10:00:00 +0000" = some t :=
      Option.isSome_iff_exists.mp (by decide +kernel)
    exact ⟨t, ht, (hdate _ _ t (by decide)).mpr (.inl ⟨_, List.mem_cons_of_mem _ List.mem_cons_self, ht⟩)⟩
  · obtain ⟨items, items', hread, hread', hperm, -⟩ := hwritten 2 flagsAndSize flagsAndSize.reverse _ _ (by decide)
      stretch_flagsAndSize (List.reverse_perm _).symm (stretched_aboutSecond (by decide +kernel))
      (stretched_aboutSecond (by decide +kernel)) (by decide +kernel) (by decide +kernel)
    exact ⟨items, items', hread, hread', hperm⟩
  · obtain ⟨hsame, -⟩ := hsessions inTurn otherwise inTurn_reorders (.ofList [.least]) [.flags]
    have hshown : (fetchSummaries (.ofList [.least]) [.flags] inTurn).1.map
        (·.map fun s => (s.uid.value, s.seen, s.size)) = .ok [(1, true, 0), (2, false, 42)] := by decide +kernel
    generalize (fetchSummaries (.ofList [.least]) [.flags] inTurn).1 =
      result at hsame hshown
    rcases result with e | summaries
    · cases hshown
    · exact ⟨summaries, rfl, hsame.symm, Except.ok.inj hshown⟩

/-- Where a response names two messages, it is about the one that it names first. -/
theorem summed_by_first_identifier :
    ¬ ∀ (line line' done : String) (n : Nat) (items items' : List FetchItem),
      Response.read (Utf8.encode line) = .ok (.untagged (.fetch n items)) →
      Response.read (Utf8.encode line') = .ok (.untagged (.fetch n items')) →
      Unrepeated items → items.Perm items' → ∀ (uids : UidSet) (attributes : List FetchAttribute),
      (fetchSummaries uids attributes (hearing [line', done])).1 =
        (fetchSummaries uids attributes (hearing [line, done])).1 := by
  intro h
  let second : Uid := ⟨2, by decide, by decide⟩
  have hone : Response.read (Utf8.encode "* 1 FETCH (UID 1 UID 2 FLAGS ())\r\n") =
      .ok (.untagged (.fetch 1 [.uid .least, .uid second, .flags []])) := rfl
  have htwo : Response.read (Utf8.encode "* 1 FETCH (UID 2 UID 1 FLAGS ())\r\n") =
      .ok (.untagged (.fetch 1 [.uid second, .uid .least, .flags []])) := rfl
  have hsame := h _ _ "A0001 OK done\r\n" 1 _ _ hone htwo (by decide) (.swap _ _ _) (.ofList [.least]) [.flags]
  have huids := congrArg (fun result => result.toOption.map (·.map fun s => s.uid.value)) hsame
  revert huids
  decide +kernel

end ImapSession

end Mailroom
