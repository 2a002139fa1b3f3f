import Mailroom.Proofs.Imap.Exchange
import Mailroom.Proofs.Session.Running
import Mailroom.Proofs.Sorted.Views
import Mailroom.Session.Imap

/-! What a session over a connection hears.

A request that succeeds has read some frames from the front of what was to come (`Reads`), and
what it gives is what these frames tell: a search the messages that search answers report
(`search_ok`), a fetch everything told of each message, by the identifier that a response
carries (`fetch_ok`). Nothing in a response says whether it was asked for. -/
namespace Mailroom
open Connection

/-! ### What frames tell of messages -/

/-- The numbers in each search answer among the frames, in order. -/
def searches (frames : List Bytes) : List (List Nat) :=
  (told frames).filterMap fun
    | .search numbers => some numbers
    | _ => none

/-- Whether a search answer among the frames reports the message. -/
def Reported (frames : List Bytes) (u : Uid) : Prop :=
  ∃ numbers ∈ searches frames, ∃ n ∈ numbers, Uid.ofNat? n = some u

/-- The items of each response about a message, in order. -/
def fetches (frames : List Bytes) : List (List FetchItem) :=
  (told frames).filterMap fun
    | .fetch _ items => some items
    | _ => none

/-- The responses that carry the identifier. -/
def responsesAbout (u : Uid) (responses : List (List FetchItem)) : List (List FetchItem) :=
  responses.filter fun items => ImapSession.uidOf items == some u

/-- Everything that the frames tell of a message, if they tell anything of it. -/
def about (frames : List Bytes) (u : Uid) : Option (List FetchItem) :=
  match responsesAbout u (fetches frames) with
  | [] => none
  | responses => some responses.flatten

namespace ImapSession
variable {s t v : ImapSession}

/-! ### Frames that are read -/

/-- Between two states of a session these frames are read. -/
def Reads (s : ImapSession) (frames : List Bytes) (t : ImapSession) : Prop :=
  s.connection.incoming = frames ++ t.connection.incoming

theorem Reads.refl (s : ImapSession) : Reads s [] s := rfl

theorem Reads.trans {first second : List Bytes} (h : Reads s first t) (h' : Reads t second v) :
    Reads s (first ++ second) v := by
  unfold Reads at *
  rw [h, h', List.append_assoc]

/-- Which frames are read is told by the two states. -/
theorem Reads.unique {first second : List Bytes} (h : Reads s first t) (h' : Reads s second t) :
    first = second :=
  List.append_cancel_right (h.symm.trans h')

theorem told_append (first second : List Bytes) : told (first ++ second) = told first ++ told second :=
  List.filterMap_append

theorem reported_append {first second : List Bytes} {u : Uid} :
    Reported (first ++ second) u ↔ Reported first u ∨ Reported second u := by
  have hsearches : searches (first ++ second) = searches first ++ searches second := by
    rw [searches, told_append, List.filterMap_append]
    rfl
  unfold Reported
  simp only [hsearches, List.mem_append, or_and_right, exists_or]

/-! ### Requests -/

theorem talk_ok {α : Type} {op : Talk α} {a : α} (h : talk op s = (.ok a, t)) :
    op s.connection = (.ok a, t.connection) := by
  unfold talk at h
  rcases hop : op s.connection with ⟨_ | b, c⟩ <;> rw [hop] at h <;> cases h
  rfl

theorem ask_ok {command : Command} {c d : Connection} {answer : Answer}
    (h : Client.ask command c = (.ok answer, d)) :
    ∃ frames, c.incoming = frames ++ d.incoming ∧ answer.untagged = told frames := by
  obtain ⟨before, last, hconcludes, htold⟩ := execute_ok h
  obtain ⟨condition, text, hread, -⟩ := hconcludes.completes
  refine ⟨before ++ [last], ?_, ?_⟩
  · rw [hconcludes.received, List.append_assoc]
    rfl
  · have hlast : told [last] = [] := by simp [told, told?, hread]
    rw [htold, told_append, hlast, List.append_nil]

theorem requireFolder_run (s : ImapSession) : requireFolder s = (match s.state with
    | .loggedIn => .error .noFolderSelected
    | .opened _ => .ok ()
    | .closed => .error .closed, s) := by
  rcases hstate : s.state <;> simp only [requireFolder, bind_run, get_run, hstate, throw_run, pure_run]

theorem requireLine_run (s : ImapSession) :
    requireLine s = (if s.state = .closed then .error .closed else .ok (), s) := by
  by_cases hstate : s.state = .closed <;> simp [requireLine, bind_run, hstate]

theorem requireFolder_ok (h : requireFolder s = (.ok (), t)) : t = s := by
  rw [requireFolder_run] at h
  exact (congrArg Prod.snd h).symm

theorem requireLine_ok (h : requireLine s = (.ok (), t)) : t = s := by
  rw [requireLine_run] at h
  exact (congrArg Prod.snd h).symm

theorem selectFolder_ok {folder : String} {readOnly : Bool} {status : Mailbox.Status}
    (h : selectFolder folder readOnly s = (.ok status, t)) : ∃ frames, Reads s frames t := by
  obtain ⟨_, s₁, hline, hopen⟩ := bind_eq_ok.mp h
  obtain rfl := requireLine_ok hline
  rw [bind_ok (modify_run _ _)] at hopen
  obtain ⟨status', s₂, htalk, hdone⟩ := bind_eq_ok.mp hopen
  rw [bind_ok (modify_run _ _)] at hdone
  cases hdone
  obtain ⟨answer, c, hask, hend⟩ := bind_eq_ok.mp (talk_ok htalk)
  cases hend
  obtain ⟨frames, hframes, -⟩ := ask_ok hask
  exact ⟨frames, hframes⟩

/-- A search finds the messages that search answers report. -/
theorem search_ok {keys : List SearchKey} {uids : UidSet}
    (h : (MailSession.search keys : SessionM ImapSession UidSet) s = (.ok uids, t)) :
    ∃ frames, Reads s frames t ∧ ∀ u, u ∈ uids ↔ Reported frames u := by
  obtain ⟨_, s₁, hfolder, hsearch⟩ := bind_eq_ok.mp h
  obtain rfl := requireFolder_ok hfolder
  obtain ⟨found, s₂, htalk, hdone⟩ := bind_eq_ok.mp hsearch
  cases hdone
  obtain ⟨answer, c, hask, hend⟩ := bind_eq_ok.mp (talk_ok htalk)
  cases hend
  obtain ⟨frames, hframes, htold⟩ := ask_ok hask
  refine ⟨frames, hframes, fun u => ?_⟩
  rw [SortedSet.mem_ofList, htold, List.mem_filterMap]
  show (∃ n, n ∈ (searches frames).flatten ∧ _) ↔ _
  constructor
  · rintro ⟨n, hn, hu⟩
    obtain ⟨numbers, hnumbers, hn⟩ := List.mem_flatten.mp hn
    exact ⟨numbers, hnumbers, n, hn, hu⟩
  · rintro ⟨numbers, hnumbers, n, hn, hu⟩
    exact ⟨n, List.mem_flatten.mpr ⟨numbers, hnumbers, hn⟩, hu⟩

theorem find?_gather (responses : List (List FetchItem)) (found : Fetched) (u : Uid) :
    (responses.foldl gather found).find? u = match responsesAbout u responses with
      | [] => found.find? u
      | about => some ((found.find? u).getD [] ++ about.flatten) := by
  induction responses generalizing found with
  | nil => rfl
  | cons items rest ih =>
    rw [List.foldl_cons, ih]
    have hgather : (gather found items).find? u =
        if uidOf items = some u then some ((found.find? u).getD [] ++ items) else found.find? u := by
      unfold gather
      rcases uidOf items with _ | v
      · rfl
      · rw [SortedMap.find?_insert]
        by_cases hv : u = v
        · subst hv
          simp
        · simp [hv, Ne.symm hv]
    by_cases hu : uidOf items = some u
    · have habout : responsesAbout u (items :: rest) = items :: responsesAbout u rest := by
        simp [responsesAbout, hu]
      rw [hgather, habout, if_pos hu]
      rcases responsesAbout u rest with _ | _ <;> simp
    · have habout : responsesAbout u (items :: rest) = responsesAbout u rest := by
        simp [responsesAbout, hu]
      rw [hgather, habout, if_neg hu]

/-- A fetch gives everything that was told of each message, asked for or not. -/
theorem fetch_ok {uids : UidSet} {attributes : List FetchAttribute} {found : Fetched}
    (h : (MailSession.fetch uids attributes : SessionM ImapSession Fetched) s = (.ok found, t)) :
    ∃ frames, Reads s frames t ∧ ∀ u, found.find? u = about frames u := by
  change fetch uids attributes s = _ at h
  unfold fetch at h
  split at h
  · cases h
    exact ⟨[], .refl s, fun u => rfl⟩
  · obtain ⟨_, s₁, hfolder, hfetch⟩ := bind_eq_ok.mp h
    obtain rfl := requireFolder_ok hfolder
    obtain ⟨responses, s₂, htalk, hdone⟩ := bind_eq_ok.mp hfetch
    cases hdone
    obtain ⟨answer, c, hask, hend⟩ := bind_eq_ok.mp (talk_ok htalk)
    cases hend
    obtain ⟨frames, hframes, htold⟩ := ask_ok hask
    refine ⟨frames, hframes, fun u => ?_⟩
    rw [find?_gather, htold]
    rfl

end ImapSession

end Mailroom
