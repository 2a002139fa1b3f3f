import Mailroom.Proofs.Session.Hearing
import Mailroom.Search.Resolve

/-! Where the messages that a search finds come from.

A search is meant to find messages that the server reports in answer to it, and the filters are
meant to narrow what was found. The scan for bulk senders and the filters take whatever a fetch
gives, and a server may tell of other messages at any time. `resolve_reported_iff` says for every
search exactly when it keeps to what was reported: if no filter is told, of a message that it was
not given, what lets it pass, and if nothing else that the search finds is known only from what
was told of it. -/
namespace Mailroom.SearchSpec
open Connection ImapSession
variable {folder : String} {spec : SearchSpec} {mode : MergeMode} {s t : ImapSession}

/-! ### Messages that are told of -/

theorem about_eq_none_iff {frames : List Bytes} {u : Uid} :
    about frames u = none ↔ responsesAbout u (fetches frames) = [] := by
  unfold about
  rcases responsesAbout u (fetches frames) with _ | _ <;> simp

/-- Of a message something is told in one stretch of frames or in the next. -/
theorem told_of_append {first second : List Bytes} {u : Uid} :
    about (first ++ second) u ≠ none ↔ about first u ≠ none ∨ about second u ≠ none := by
  have hfetches : fetches (first ++ second) = fetches first ++ fetches second := by
    rw [fetches, told_append, List.filterMap_append]
    rfl
  have habout : responsesAbout u (fetches (first ++ second)) =
      responsesAbout u (fetches first) ++ responsesAbout u (fetches second) := by
    rw [hfetches]
    exact List.filter_append ..
  rw [Ne, Ne, Ne, about_eq_none_iff, about_eq_none_iff, about_eq_none_iff, habout,
    List.append_eq_nil_iff, Classical.not_and_iff_not_or_not]

/-! ### Sources -/

/-- An operation whose findings are among given messages, or reported or told of meanwhile. -/
def Sourced (given : UidSet) (op : Mail ImapSession UidSet) : Prop :=
  ∀ s t found, op s = (.ok found, t) →
    ∃ frames, Reads s frames t ∧
      ∀ u ∈ found, u ∈ given ∨ Reported frames u ∨ about frames u ≠ none

theorem Sourced.pure (given : UidSet) : Sourced given (Pure.pure given) := by
  intro s t found h
  cases h
  exact ⟨[], .refl s, fun u hu => .inl hu⟩

/-- What comes after may go on from all that is known by then. -/
theorem Sourced.bind {given : UidSet} {op : Mail ImapSession UidSet}
    {next : UidSet → Mail ImapSession UidSet} {known : UidSet → UidSet} (h : Sourced given op)
    (hnext : ∀ more, Sourced (known more) (next more))
    (hknown : ∀ more u, u ∈ known more → u ∈ given ∨ u ∈ more) :
    Sourced given (op >>= next) := by
  intro s v found hrun
  obtain ⟨more, t, hop, hrest⟩ := bind_eq_ok.mp hrun
  obtain ⟨first, hreads, hmore⟩ := h s t more hop
  obtain ⟨second, hreads', hfound⟩ := hnext more t v found hrest
  refine ⟨first ++ second, hreads.trans hreads', fun u hu => ?_⟩
  rw [reported_append, told_of_append]
  rcases hfound u hu with hu | hu | hu
  · rcases hknown more u hu with hu | hu
    · exact .inl hu
    · rcases hmore u hu with hu | hu | hu
      · exact .inl hu
      · exact .inr (.inl (.inl hu))
      · exact .inr (.inr (.inl hu))
  · exact .inr (.inl (.inr hu))
  · exact .inr (.inr (.inr hu))

theorem find_sourced (given : UidSet) (folder : String) (keys : List SearchKey) :
    Sourced given (find folder keys) := by
  intro s t found h
  obtain ⟨frames, hreads, hfound⟩ := search_ok (Mail.lift_eq_ok.mp h)
  exact ⟨frames, hreads, fun u hu => .inr (.inl ((hfound u).mp hu))⟩

theorem findAny_sourced (folder : String) (given : UidSet) (queries : List (List SearchKey)) :
    Sourced given (findAny folder given queries) := by
  induction queries generalizing given with
  | nil => exact .pure given
  | cons keys rest ih =>
    exact (find_sourced given folder keys).bind (fun more => ih (given.union more))
      fun more u hu => SortedSet.mem_union.mp hu

/-- What a fetch gives and a test lets pass, asked for or not. -/
theorem kept_ok {uids found : UidSet} {attributes : List FetchAttribute} {keep : List FetchItem → Bool}
    (h : (Mail.query folder (MailSession.fetch uids attributes) >>= fun told =>
      pure (told.filter fun _ items => keep items).keySet : Mail ImapSession UidSet) s = (.ok found, t)) :
    ∃ frames, Reads s frames t ∧
      ∀ u, u ∈ found ↔ ∃ items, about frames u = some items ∧ keep items = true := by
  obtain ⟨told, s₁, hfetch, hdone⟩ := bind_eq_ok.mp h
  cases hdone
  obtain ⟨frames, hreads, htold⟩ := fetch_ok (Mail.lift_eq_ok.mp hfetch)
  refine ⟨frames, hreads, fun u => ?_⟩
  rw [SortedMap.mem_keySet_filter, htold]

theorem scan_sourced (given : UidSet) (folder : String) (spec : SearchSpec) :
    Sourced given (scan folder spec) := by
  have hkept : ∀ candidates, Sourced given (Mail.query folder (MailSession.fetch candidates [.envelope]) >>=
      fun envelopes => pure (envelopes.filter fun _ items => isFromBulk items).keySet) := by
    intro candidates s t found h
    obtain ⟨frames, hreads, hfound⟩ := kept_ok h
    refine ⟨frames, hreads, fun u hu => ?_⟩
    obtain ⟨items, hitems, -⟩ := (hfound u).mp hu
    exact .inr (.inr (by rw [hitems]; exact Option.some_ne_none items))
  exact (find_sourced given folder [spec.base]).bind hkept fun more u hu => .inl hu

theorem findings_sourced (given : UidSet) (folder : String) (spec : SearchSpec) (p : Predicate) :
    Sourced given (findings folder spec p) := by
  unfold findings
  cases p.plan with
  | queries queries =>
    intro s t found h
    obtain ⟨frames, hreads, hfound⟩ :=
      findAny_sourced folder .empty (queries.map spec.restrict) s t found h
    exact ⟨frames, hreads, fun u hu => .inr ((hfound u hu).resolve_left (SortedSet.not_mem_empty u))⟩
  | envelopeScan => exact scan_sourced given folder spec

theorem merge_known (mode : MergeMode) (found now : UidSet) (u : Uid) (h : u ∈ mode.merge found now) :
    u ∈ found ∨ u ∈ now := by
  cases mode with
  | and => exact .inl (SortedSet.mem_inter.mp h).1
  | or => exact SortedSet.mem_union.mp h

theorem mergeFindings_sourced (folder : String) (spec : SearchSpec) (mode : MergeMode) (given : UidSet)
    (predicates : List Predicate) : Sourced given (mergeFindings folder spec mode given predicates) := by
  induction predicates generalizing given with
  | nil => exact .pure given
  | cons p rest ih =>
    exact (findings_sourced given folder spec p).bind (fun now => ih (mode.merge given now))
      fun now u hu => merge_known mode given now u hu

theorem query_sourced (folder : String) (spec : SearchSpec) (mode : MergeMode) :
    Sourced .empty (query folder spec mode) := by
  unfold query
  rcases spec.predicates with _ | ⟨p, rest⟩
  · exact find_sourced .empty folder [spec.base]
  · exact (findings_sourced .empty folder spec p).bind
      (fun found => mergeFindings_sourced folder spec mode found rest) fun found u hu => .inr hu

/-! ### Filters -/

/-- A filter lets pass what a fetch gives and the filter keeps. Nothing is fetched of no
messages. -/
theorem narrow_ok {uids left : UidSet} {filter : PostFilter}
    (h : narrow folder uids filter s = (.ok left, t)) :
    ∃ frames, Reads s frames t ∧
      ∀ u, u ∈ left ↔
        ∃ items, about frames u = some items ∧ filter.keeps (attachmentCount items) = true := by
  unfold narrow at h
  split at h
  · next hempty =>
    cases h
    obtain rfl := SortedSet.isEmpty_iff.mp hempty
    refine ⟨[], .refl s, fun u => ⟨fun hu => absurd hu (SortedSet.not_mem_empty u), ?_⟩⟩
    rintro ⟨items, hitems, -⟩
    cases hitems
  · exact kept_ok h

theorem narrow_sourced (given : UidSet) (folder : String) (uids : UidSet) (filter : PostFilter) :
    Sourced given (narrow folder uids filter) := by
  intro s t found h
  obtain ⟨frames, hreads, hfound⟩ := narrow_ok h
  refine ⟨frames, hreads, fun u hu => ?_⟩
  obtain ⟨items, hitems, -⟩ := (hfound u).mp hu
  exact .inr (.inr (by rw [hitems]; exact Option.some_ne_none items))

theorem narrowAll_sourced (folder : String) (given : UidSet) (filters : List PostFilter) :
    Sourced given (narrowAll folder given filters) := by
  induction filters generalizing given with
  | nil => exact .pure given
  | cons filter rest ih =>
    exact (narrow_sourced given folder given filter).bind ih fun more u hu => .inr hu

/-- From these messages and this session on, each filter that succeeds gives a part of what it
was given. -/
def Narrows (folder : String) (uids : UidSet) (s : ImapSession) : List PostFilter → Prop
  | [] => True
  | filter :: rest => ∀ left t, narrow folder uids filter s = (.ok left, t) →
    (∀ u ∈ left, u ∈ uids) ∧ Narrows folder left t rest

/-- From these messages and this session on, no filter that succeeds reads, of a message that it
was not given, what lets the message pass. -/
def HeedsOwn (folder : String) (uids : UidSet) (s : ImapSession) : List PostFilter → Prop
  | [] => True
  | filter :: rest => ∀ left t, narrow folder uids filter s = (.ok left, t) →
    (∀ frames, Reads s frames t → ∀ u items, about frames u = some items →
      filter.keeps (attachmentCount items) = true → u ∈ uids) ∧ HeedsOwn folder left t rest

theorem narrows_iff {uids : UidSet} {filters : List PostFilter} :
    Narrows folder uids s filters ↔ HeedsOwn folder uids s filters := by
  induction filters generalizing uids s with
  | nil => exact Iff.rfl
  | cons filter rest ih =>
    unfold Narrows HeedsOwn
    refine forall_congr' fun left => forall_congr' fun t => forall_congr' fun h => and_congr ?_ ih
    obtain ⟨frames, hreads, hleft⟩ := narrow_ok h
    constructor
    · intro hsub frames' hreads' u items hitems hkeeps
      obtain rfl := hreads.unique hreads'
      exact hsub u ((hleft u).mpr ⟨items, hitems, hkeeps⟩)
    · intro hown u hu
      obtain ⟨items, hitems, hkeeps⟩ := (hleft u).mp hu
      exact hown frames hreads u items hitems hkeeps

/-! ### The search as a whole -/

/-- The messages that the predicates of a search find, before any filter. -/
def unfiltered (folder : String) (spec : SearchSpec) (mode : MergeMode) : Mail ImapSession UidSet := do
  let _ ← Mail.query folder (MailSession.selectFolder folder true)
  query folder spec mode

theorem resolve_ok_iff {found : UidSet} :
    resolve folder spec mode s = (.ok found, t) ↔
      ∃ merged s₁, unfiltered folder spec mode s = (.ok merged, s₁) ∧
        narrowAll folder merged spec.postFilters s₁ = (.ok found, t) := by
  unfold resolve unfiltered
  simp only [bind_eq_ok]
  constructor
  · rintro ⟨status, s₁, hselect, merged, s₂, hquery, hnarrow⟩
    exact ⟨merged, s₂, ⟨status, s₁, hselect, hquery⟩, hnarrow⟩
  · rintro ⟨merged, s₂, ⟨status, s₁, hselect, hquery⟩, hnarrow⟩
    exact ⟨status, s₁, hselect, merged, s₂, hquery, hnarrow⟩

/-- Whatever a search finds was reported, or told of, while it ran. -/
theorem resolve_sourced {found : UidSet} (h : resolve folder spec mode s = (.ok found, t)) :
    ∃ frames, Reads s frames t ∧ ∀ u ∈ found, Reported frames u ∨ about frames u ≠ none := by
  obtain ⟨merged, s₁, hunfiltered, hnarrow⟩ := resolve_ok_iff.mp h
  obtain ⟨status, s₀, hselect, hquery⟩ := bind_eq_ok.mp hunfiltered
  obtain ⟨opening, hopening⟩ := selectFolder_ok (Mail.lift_eq_ok.mp hselect)
  have hboth := (query_sourced folder spec mode).bind
    (fun merged => narrowAll_sourced folder merged spec.postFilters) fun merged u hu => .inr hu
  obtain ⟨frames, hreads, hfound⟩ := hboth s₀ t found ((bind_ok hquery).trans hnarrow)
  refine ⟨opening ++ frames, hopening.trans hreads, fun u hu => ?_⟩
  rw [reported_append, told_of_append]
  rcases hfound u hu with hu | hu | hu
  · exact absurd hu (SortedSet.not_mem_empty u)
  · exact .inl (.inr hu)
  · exact .inr (.inr hu)

/-- A search that succeeds keeps to what search answers reported, and its filters narrow what they
are given, exactly if no filter reads, of a message that it was not given, what lets the message
pass, and each message found of which something was told was reported as well. -/
theorem resolve_reported_iff {found : UidSet} (h : resolve folder spec mode s = (.ok found, t)) :
    ∃ frames merged s₁, Reads s frames t ∧ unfiltered folder spec mode s = (.ok merged, s₁) ∧
      ((∀ u ∈ found, Reported frames u) ∧ Narrows folder merged s₁ spec.postFilters ↔
        (∀ u ∈ found, about frames u ≠ none → Reported frames u) ∧
          HeedsOwn folder merged s₁ spec.postFilters) := by
  obtain ⟨merged, s₁, hunfiltered, -⟩ := resolve_ok_iff.mp h
  obtain ⟨frames, hreads, hfound⟩ := resolve_sourced h
  refine ⟨frames, merged, s₁, hreads, hunfiltered, and_congr ⟨?_, ?_⟩ narrows_iff⟩
  · exact fun hreported u hu _ => hreported u hu
  · intro htold u hu
    rcases hfound u hu with hu' | hu'
    · exact hu'
    · exact htold u hu hu'

/-- A session whose server tells, while it is asked for the structure of message 1, that message
99 has been read. -/
def interrupted : ImapSession where
  connection :=
    { incoming :=
        [Octet.ofText "A0001 OK [READ-ONLY] opened\r\n", Octet.ofText "* SEARCH 1\r\n",
          Octet.ofText "A0002 OK done\r\n",
          Octet.ofText "* 1 FETCH (UID 1 BODYSTRUCTURE (\"TEXT\" \"PLAIN\" NIL NIL NIL \"7BIT\" 12 1))\r\n",
          Octet.ofText "* 9 FETCH (UID 99 FLAGS (\\Seen))\r\n", Octet.ofText "A0003 OK done\r\n"]
      ending := .closed }
  state := .loggedIn

/-- The search for messages without attachments takes message 99 for one that was found. -/
theorem resolve_keeps_unreported :
    ∃ found t frames,
      resolve "INBOX" { postFilters := [.noAttachments] } .and interrupted = (.ok found, t) ∧
      Reads interrupted frames t ∧ ∃ u ∈ found, u.value = 99 ∧ ¬ Reported frames u := by
  have hids : (resolve "INBOX" { postFilters := [.noAttachments] } .and interrupted).1.toOption.map
      (·.toList.map Uid.value) = some [1, 99] := by decide +kernel
  have hsearched : searches interrupted.connection.incoming = [[1]] := by decide +kernel
  rcases hrun : resolve "INBOX" { postFilters := [.noAttachments] } .and interrupted with
    ⟨_ | found, t⟩ <;> rw [hrun] at hids
  · cases hids
  · obtain ⟨frames, merged, s₁, hreads, -, -⟩ := resolve_reported_iff hrun
    have hlist : found.toList.map Uid.value = [1, 99] := Option.some.inj hids
    have hmem : 99 ∈ found.toList.map Uid.value := by
      rw [hlist]
      decide
    obtain ⟨u, hu, h99⟩ := List.mem_map.mp hmem
    refine ⟨found, t, frames, rfl, hreads, u, hu, h99, ?_⟩
    intro hreported
    have hall : Reported interrupted.connection.incoming u := by
      rw [hreads]
      exact reported_append.mpr (.inl hreported)
    obtain ⟨numbers, hnumbers, n, hn, hnu⟩ := hall
    rw [hsearched, List.mem_singleton] at hnumbers
    rw [hnumbers, List.mem_singleton] at hn
    subst hn
    have hu1 : u = Uid.least := (Option.some.inj hnu).symm
    rw [hu1] at h99
    cases h99

end Mailroom.SearchSpec
