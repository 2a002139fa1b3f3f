import Mailroom.Proofs.Account.LoggedOut
import Mailroom.Proofs.Calendar.Moments
import Mailroom.Proofs.Message.Items
import Mailroom.Proofs.Search.Meaning

/-! What summaries tell of the messages in a mail store.

A store makes up an envelope, a structure and a date for a message, and a summary is put together from these
again. `ofItems_items` says that nothing is lost on the way: the summary tells of the message as it is stored.
An account sums up exactly what its search finds, each message once and in order (`summaries_tell`). -/
namespace Mailroom
open Mailstore

/-! ### One message -/

/-- The summary tells of the message: its sender with the name, unless that is blank, its subject and size, its
marks, the midnight of its day, and those of its files that have a name. -/
structure Summary.Tells (s : Summary) (m : Message) : Prop where
  address : s.address = m.sender
  name : ∀ name, s.name = some name ↔
    m.senderName = some name ∧ ∃ c ∈ name.toList, Blank.isBlank c = false
  subject : s.subject = m.subject
  size : s.size = m.size
  seen : s.seen = true ↔ Flag.seen ∈ m.flags
  answered : s.answered = true ↔ Flag.answered ∈ m.flags
  flagged : s.flagged = true ↔ Flag.flagged ∈ m.flags
  draft : s.draft = true ↔ Flag.draft ∈ m.flags
  deleted : s.deleted = true ↔ Flag.deleted ∈ m.flags
  date : s.date = some (.midnight m.date)
  attachments : s.attachments = m.attachments.filter fun a => a.filename ≠ ""

namespace Summary

/-- The name that is noted is the sender's, unless it is blank. -/
theorem noteEnvelope_envelope (s : Summary) (m : Message) : noteEnvelope s m.envelope =
    { s with
      address := m.sender
      name := m.senderName.filter fun name => !Blank.isBlankText name
      subject := m.subject } := by
  have hsender : ({ Message.addressOf m.sender with name := m.senderName } : Address).email? = some m.sender :=
    Message.email?_addressOf m.sender
  simp [noteEnvelope, Message.envelope, hsender]

/-- What a message tells of itself is put together as it is stored. -/
theorem ofItems_items (m : Message) (u : Uid) : ofItems u (m.items u attributes) =
    { uid := u
      address := m.sender
      name := m.senderName.filter fun name => !Blank.isBlankText name
      subject := m.subject
      date := some (.midnight m.date)
      seen := m.flags.contains .seen
      answered := m.flags.contains .answered
      flagged := m.flags.contains .flagged
      draft := m.flags.contains .draft
      deleted := m.flags.contains .deleted
      size := m.size
      attachments := m.attachments.filter fun a => a.filename ≠ "" } := by
  have hitems : m.items u attributes = [.uid u, .flags m.flags, .envelope m.envelope,
      .bodyStructure m.bodyStructure, .size m.size,
      .internalDate (m.date.internalText ++ " 00:00:00 +0000")] := rfl
  simp only [ofItems, hitems, List.foldl_cons, List.foldl_nil, note, foldl_noteFlag, noteEnvelope_envelope,
    Message.all_bodyStructure, Calendar.readInternal?_midnight, Option.some_or, Bool.false_or]

theorem tells_ofItems (m : Message) (u : Uid) : (ofItems u (m.items u attributes)).Tells m := by
  rw [ofItems_items]
  refine ⟨rfl, fun name => ?_, rfl, rfl, ?_, ?_, ?_, ?_, ?_, rfl, rfl⟩
  · rw [Option.filter_eq_some_iff]
    simp [Blank.isBlankText]
  all_goals exact List.contains_iff_mem

end Summary

/-! ### All that a search finds -/

namespace Account
open SearchSpec Mailstore.Session
variable {folder : String} {f : Folder} {s : Session} {spec : SearchSpec} {mode : MergeMode}

/-- The commands that telling about messages takes: those that finding them needs, and the one that tells
about what was found, if anything was. -/
def Takes (f : Folder) (spec : SearchSpec) (mode : MergeMode) (c : String) : Prop :=
  spec.Needs f mode c ∨ c = "UID FETCH" ∧ described f spec mode ≠ .empty

/-- Once the messages are found, the folder is open, and they are told about. -/
theorem describe_found (hf : s.server.folders.find? folder = some f) (attributes : List FetchAttribute)
    (h : ∀ c, s.server.failing = some c → ¬ spec.Needs f mode c) :
    ∃ t : Session, t.server.failing = s.server.failing ∧ Open folder f t ∧
      describe folder spec mode attributes s =
        Mail.query folder (MailSession.fetch (described f spec mode) attributes) t := by
  obtain ⟨log, hresolve⟩ := resolve_ok hf spec mode h
  exact ⟨(s.opening folder true).logged log, rfl, ⟨⟨true, rfl⟩, hf⟩, bind_ok hresolve⟩

theorem describe_ok (hf : s.server.folders.find? folder = some f) (attributes : List FetchAttribute)
    (h : ∀ c, s.server.failing = some c → ¬ Takes f spec mode c) :
    (describe folder spec mode attributes s).1 =
      .ok (Session.told f attributes (described f spec mode)) := by
  obtain ⟨t, hfailing, hopen, hrun⟩ :=
    describe_found hf attributes fun c hc hneed => h c hc (.inl hneed)
  obtain ⟨log, hfetch⟩ := (fetch_looks hopen (described f spec mode) attributes).finds
    fun c hc hneed => h c (hfailing ▸ hc) (.inr hneed)
  rw [hrun, hfetch]

theorem describe_error (hf : s.server.folders.find? folder = some f) (attributes : List FetchAttribute)
    {c : String} (hc : s.server.failing = some c) (htakes : Takes f spec mode c) :
    (describe folder spec mode attributes s).1 = .error (.queryFailed folder (.rejected (.failing c))) := by
  by_cases hneed : spec.Needs f mode c
  · have hresolve : resolve folder spec mode s = (.error (.queryFailed folder (.rejected (.failing c))), _) :=
      Prod.ext (resolve_error hf spec mode hc hneed).1 rfl
    rw [describe, bind_error hresolve]
  · have hnone : ∀ c', s.server.failing = some c' → ¬ spec.Needs f mode c' := by
      intro c' hc'
      obtain rfl : c = c' := Option.some.inj (hc.symm.trans hc')
      exact hneed
    obtain ⟨t, hfailing, hopen, hrun⟩ := describe_found hf attributes hnone
    obtain ⟨log, hfetch⟩ := (fetch_looks hopen (described f spec mode) attributes).fails c
      (hfailing.trans hc) (htakes.resolve_left hneed)
    rw [hrun, hfetch]

/-- Whatever is told is told by a message that was asked for. -/
theorem mem_told {uids : UidSet} {attributes : List FetchAttribute} {u : Uid} {items : List FetchItem}
    (h : (u, items) ∈ (Session.told f attributes uids).entries) :
    u ∈ uids ∧ ∃ m, f.messages.find? u = some m ∧ items = m.items u attributes := by
  rw [← SortedMap.find?_eq_some_iff, find?_told] at h
  by_cases hu : u ∈ uids
  · rw [if_pos (SortedSet.contains_iff.mpr hu)] at h
    obtain ⟨m, hm, rfl⟩ := Option.map_eq_some_iff.mp h
    exact ⟨hu, m, hm, rfl⟩
  · rw [if_neg (mt SortedSet.contains_iff.mp hu)] at h
    cases h

/-- Messages that are all there are told about. -/
theorem keySet_told {uids : UidSet} (attributes : List FetchAttribute)
    (h : ∀ u ∈ uids, ∃ m, f.messages.find? u = some m) :
    (Session.told f attributes uids).keySet = uids := by
  apply SortedSet.ext
  intro u
  rw [SortedMap.mem_keySet]
  constructor
  · rintro ⟨items, hitems⟩
    exact (mem_told (SortedMap.find?_eq_some_iff.mp hitems)).1
  · intro hu
    obtain ⟨m, hm⟩ := h u hu
    exact ⟨_, by rw [find?_told, if_pos (SortedSet.contains_iff.mpr hu), hm]; rfl⟩

/-- The summaries of what a store tells about messages. -/
def summed (f : Folder) (uids : UidSet) : List Summary :=
  (Session.told f Summary.attributes uids).entries.map fun (uid, items) => Summary.ofItems uid items

/-- Each message that is there is summed up once, in order. -/
theorem map_uid_summed {uids : UidSet} (h : ∀ u ∈ uids, ∃ m, f.messages.find? u = some m) :
    (summed f uids).map Summary.uid = uids.toList := by
  rw [← congrArg SortedSet.toList (keySet_told Summary.attributes h), summed, List.map_map]
  refine List.map_congr_left fun (u, items) hitems => ?_
  obtain ⟨-, m, -, rfl⟩ := mem_told hitems
  exact congrArg Summary.uid (Summary.ofItems_items m u)

theorem tells_summed {uids : UidSet} {summary : Summary} (h : summary ∈ summed f uids) :
    summary.uid ∈ uids ∧ ∃ m, f.messages.find? summary.uid = some m ∧ summary.Tells m := by
  obtain ⟨⟨u, items⟩, hitems, rfl⟩ := List.mem_map.mp h
  obtain ⟨hu, m, hm, rfl⟩ := mem_told hitems
  have huid : (Summary.ofItems u (m.items u Summary.attributes)).uid = u :=
    congrArg Summary.uid (Summary.ofItems_items m u)
  show (Summary.ofItems u (m.items u Summary.attributes)).uid ∈ uids ∧ _
  rw [huid]
  exact ⟨hu, m, hm, Summary.tells_ofItems m u⟩

/-! ### On sessions of their own -/

variable {a : Account Server}

theorem onSession_accepted {α : Type} (op : Mail Session α) (h : a.connector.refusesLogin = false) :
    (onSession op a).1 = (op (opened a.connector)).1 :=
  congrArg Prod.fst ((withSession_run a.name op a.connector).trans (if_neg (by simp [h])))

theorem summaries_fst (folder : String) (spec : SearchSpec) (mode : MergeMode) (a : Account Server) :
    (summaries folder spec mode a).1 = ((onSession (describe folder spec mode Summary.attributes) a).1).map
      fun told => told.entries.map fun (uid, items) => Summary.ofItems uid items := by
  rw [summaries, tellAbout, bind_run]
  rcases onSession (describe folder spec mode Summary.attributes) a with ⟨_ | told, after⟩ <;> rfl

theorem summaries_ok (hf : a.connector.folders.find? folder = some f)
    (haccepts : a.connector.refusesLogin = false)
    (h : ∀ c, a.connector.failing = some c → ¬ Takes f spec mode c) :
    (summaries folder spec mode a).1 = .ok (summed f (described f spec mode)) := by
  have hdescribe := describe_ok (s := opened a.connector) hf Summary.attributes h
  rw [summaries_fst, onSession_accepted _ haccepts, hdescribe]
  rfl

theorem search_ok (hf : a.connector.folders.find? folder = some f)
    (haccepts : a.connector.refusesLogin = false)
    (h : ∀ c, a.connector.failing = some c → ¬ spec.Needs f mode c) :
    (search folder spec mode a).1 = .ok (described f spec mode) := by
  obtain ⟨log, hresolve⟩ := resolve_ok (s := opened a.connector) hf spec mode h
  rw [search, onSession_accepted _ haccepts, hresolve]

theorem summaries_error (hf : a.connector.folders.find? folder = some f)
    (haccepts : a.connector.refusesLogin = false) {c : String} (hc : a.connector.failing = some c)
    (htakes : Takes f spec mode c) :
    (summaries folder spec mode a).1 = .error (.queryFailed folder (.rejected (.failing c))) := by
  have hdescribe := describe_error (s := opened a.connector) hf Summary.attributes hc htakes
  rw [summaries_fst, onSession_accepted _ haccepts, hdescribe]
  rfl

theorem summaries_refused (folder : String) (spec : SearchSpec) (mode : MergeMode)
    (h : a.connector.refusesLogin = true) : (summaries folder spec mode a).1 =
      .error (.authentication a.name (.login "invalid credentials")) := by
  rw [summaries_fst, onSession_refused _ h]
  rfl

/-- An account sums up what it finds: one summary for each message that the search finds in the folder, in
order, and each tells of the message as the store has it, so that it shows files if the search is for messages
with files, and none if it is for messages without. Only a store that refuses logins, or was told to fail a
command that this takes, gives that failure instead. -/
theorem summaries_tell (a : Account Server) (folder : String) {f : Folder}
    (hf : a.connector.folders.find? folder = some f) (spec : SearchSpec) (mode : MergeMode) :
    (a.connector.refusesLogin = true → (summaries folder spec mode a).1 =
      .error (.authentication a.name (.login "invalid credentials"))) ∧
    (a.connector.refusesLogin = false → ∀ c, a.connector.failing = some c → Takes f spec mode c →
      (summaries folder spec mode a).1 = .error (.queryFailed folder (.rejected (.failing c)))) ∧
    (a.connector.refusesLogin = false → (∀ c, a.connector.failing = some c → ¬ Takes f spec mode c) →
      ∃ found summaries, (search folder spec mode a).1 = .ok found ∧
        (Account.summaries folder spec mode a).1 = .ok summaries ∧
        summaries.map Summary.uid = found.toList ∧
        (summaries.map Summary.uid).Pairwise (fun u v => u.value < v.value) ∧
        ∀ summary ∈ summaries,
          (∃ m, f.messages.find? summary.uid = some m ∧ summary.Tells m) ∧
          (.attachments ∈ spec.postFilters → summary.attachments ≠ []) ∧
          (.noAttachments ∈ spec.postFilters → summary.attachments = [])) := by
  refine ⟨summaries_refused folder spec mode,
    fun haccepts c hc htakes => summaries_error hf haccepts hc htakes, fun haccepts hnone => ?_⟩
  have hthere : ∀ u ∈ described f spec mode, ∃ m, f.messages.find? u = some m :=
    fun u hu => (mem_described.mp hu).imp fun m hm => hm.1
  refine ⟨_, _, search_ok hf haccepts fun c hc hneed => hnone c hc (.inl hneed),
    summaries_ok hf haccepts hnone, map_uid_summed hthere, ?_, fun summary hsummary => ?_⟩
  · rw [map_uid_summed hthere]
    exact (described f spec mode).ascending.imp fun {u v} h => Nat.compare_eq_lt.mp h
  · obtain ⟨hu, m, hm, htells⟩ := tells_summed hsummary
    obtain ⟨m', hm', hdescribes⟩ := mem_described.mp hu
    rw [hm] at hm'
    cases hm'
    refine ⟨⟨m, hm, htells⟩, fun hfilter => ?_, fun hfilter => ?_⟩
    · obtain ⟨file, hfile, hnamed⟩ := hdescribes.passes _ hfilter
      rw [htells.attachments]
      exact List.ne_nil_of_mem (List.mem_filter.mpr ⟨hfile, decide_eq_true hnamed⟩)
    · rw [htells.attachments, List.filter_eq_nil_iff]
      exact fun file hfile hnamed => hdescribes.passes _ hfilter ⟨file, hfile, of_decide_eq_true hnamed⟩

/-- A letter with two files, of which one has no name. -/
def letterWithFiles : Message :=
  { letterFrom "ann@b.org" with
    senderName := some "Ann"
    flags := [.seen]
    attachments := [⟨"", 3⟩, ⟨"a.pdf", 5⟩] }

/-- Ann's account on a store with a letter with files and one without, which was told something. -/
def annsFiles (order : Order) : Account Server :=
  { name := "ann"
    connector := ((({} : Server).deliver "INBOX" letterWithFiles).2.deliver "INBOX"
      (letterFrom "bob@b.org")).2.told order }

/-- Of the two, only the letter with files is found where files are asked for. It is summed up as it is stored,
unless the store fails to tell about it. -/
theorem summaries_tell_files :
    let spec : SearchSpec := { postFilters := [.attachments] }
    (∃ summary, (summaries "INBOX" spec .and (annsFiles {})).1 = .ok [summary] ∧
      summary.Tells letterWithFiles ∧ summary.attachments ≠ []) ∧
    (summaries "INBOX" {} .and (annsFiles { failing := some "UID FETCH" })).1 =
      .error (.queryFailed "INBOX" (.rejected (.failing "UID FETCH"))) ∧
    (summaries "INBOX" spec .and (annsFiles { refusesLogin := true })).1 =
      .error (.authentication "ann" (.login "invalid credentials")) := by
  intro spec
  refine ⟨?_, ?_, ?_⟩
  · obtain ⟨found, summaries, hsearch, hok, huids, -, htell⟩ :=
      (summaries_tell (annsFiles {}) "INBOX" rfl spec .and).2.2 rfl nofun
    have hfound : (search "INBOX" spec .and (annsFiles {})).1 = .ok (.ofList [Uid.least]) := by decide +kernel
    obtain rfl : found = .ofList [Uid.least] := Except.ok.inj (hsearch.symm.trans hfound)
    obtain ⟨summary, rfl, huid⟩ := List.map_eq_singleton_iff.mp huids
    obtain ⟨⟨m, hm, htells⟩, hfiles, -⟩ := htell summary List.mem_cons_self
    rw [huid] at hm
    cases hm
    exact ⟨summary, hok, htells, hfiles List.mem_cons_self⟩
  · refine (summaries_tell _ "INBOX" rfl {} .and).2.1 rfl "UID FETCH" rfl (.inr ⟨rfl, ?_⟩)
    decide +kernel
  · exact (summaries_tell (annsFiles { refusesLogin := true }) "INBOX" rfl spec .and).1 rfl

/-- Where the store fails to tell about messages, those that are found are not summed up. -/
theorem summaries_without_fetch :
    ¬ ∀ (a : Account Server) (folder : String) (f : Folder), a.connector.folders.find? folder = some f →
      ∀ (spec : SearchSpec) (mode : MergeMode) (found : UidSet), (search folder spec mode a).1 = .ok found →
        ∃ summaries, (Account.summaries folder spec mode a).1 = .ok summaries ∧
          summaries.map Summary.uid = found.toList := by
  intro h
  have hfound : (search "INBOX" {} .and (annsFiles { failing := some "UID FETCH" })).1 = .ok _ := rfl
  obtain ⟨summaries, hok, -⟩ := h _ "INBOX" _ rfl {} .and _ hfound
  cases hok

end Account

end Mailroom
