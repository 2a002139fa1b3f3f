import Mailroom.Proofs.Account.Summaries
import Mathlib.Algebra.BigOperators.Group.List.Lemmas

/-! How often senders occur among the messages in a mail store.

Senders are counted in small letters. A tally has an entry for every word that occurs, with how often it does
(`find?_countSenders`), so the counts add up to the number of words (`sum_countSenders`). Every message that is
told about has a sender, which is the one that is stored, so an account that counts the senders of what its
search finds counts each message once (`uniqueSenders_tell`). -/
namespace Mailroom

/-! ### Tallies -/

namespace Account
variable {told : List (List FetchItem)}

/-- The senders that are told, in small letters. -/
def loweredSenders (told : List (List FetchItem)) : List String := (told.filterMap senderOf).map Casing.lower

/-- The tally with one word more. -/
def tally (counts : SortedMap String Nat) (word : String) : SortedMap String Nat :=
  counts.insert word ((counts.find? word).getD 0 + 1)

theorem find?_tally (counts : SortedMap String Nat) (words : List String) (word : String) :
    (words.foldl tally counts).find? word =
      if word ∈ words then some ((counts.find? word).getD 0 + words.count word) else counts.find? word := by
  induction words generalizing counts with
  | nil => rfl
  | cons first rest ih =>
    rw [List.foldl_cons, ih, tally, SortedMap.find?_insert]
    by_cases hfirst : word = first
    · subst hfirst
      by_cases hrest : word ∈ rest
      · simp [hrest, Nat.add_assoc, Nat.add_comm]
      · simp [hrest, List.count_eq_zero_of_not_mem hrest]
    · simp [hfirst, Ne.symm hfirst]

/-- Under every sender is how often it occurs, if it does. -/
theorem find?_countSenders (told : List (List FetchItem)) (address : String) :
    (countSenders told).find? address = if address ∈ loweredSenders told then
      some ((loweredSenders told).count address) else none := by
  have htally := find?_tally .empty (loweredSenders told) address
  rw [SortedMap.find?_empty, Option.getD_none, Nat.zero_add] at htally
  exact htally

theorem mem_countSenders {address : String} {n : Nat} : (address, n) ∈ (countSenders told).entries ↔
    0 < n ∧ n = (loweredSenders told).count address := by
  rw [← SortedMap.find?_eq_some_iff, find?_countSenders]
  by_cases hmem : address ∈ loweredSenders told
  · rw [if_pos hmem, Option.some.injEq]
    constructor
    · rintro rfl
      exact ⟨List.count_pos_iff.mpr hmem, rfl⟩
    · rintro ⟨-, rfl⟩
      rfl
  · rw [if_neg hmem, List.count_eq_zero_of_not_mem hmem]
    constructor
    · nofun
    · rintro ⟨hpos, rfl⟩
      cases hpos

theorem nodup_keys (m : SortedMap String Nat) : (m.entries.map Prod.fst).Nodup :=
  List.pairwise_map.mpr (m.ascending.imp fun {a b} hless hsame => by simp [hsame] at hless)

/-- The counts of all senders add up to the number of senders that are told. -/
theorem sum_countSenders (told : List (List FetchItem)) :
    ((countSenders told).entries.map Prod.snd).sum = (loweredSenders told).length := by
  have hkeys : ((countSenders told).entries.map Prod.fst).Perm (loweredSenders told).dedup := by
    rw [List.perm_ext_iff_of_nodup (nodup_keys _) (List.nodup_dedup _)]
    intro address
    rw [List.mem_dedup, List.mem_map, ← List.count_pos_iff]
    constructor
    · rintro ⟨⟨_, n⟩, hmem, rfl⟩
      obtain ⟨hpos, rfl⟩ := mem_countSenders.mp hmem
      exact hpos
    · exact fun hpos => ⟨(address, _), mem_countSenders.mpr ⟨hpos, rfl⟩, rfl⟩
  have hcounts : (countSenders told).entries.map Prod.snd =
      ((countSenders told).entries.map Prod.fst).map fun address => (loweredSenders told).count address := by
    rw [List.map_map]
    exact List.map_congr_left fun e hmem => (mem_countSenders.mp hmem).2
  calc ((countSenders told).entries.map Prod.snd).sum
      = ((loweredSenders told).dedup.map fun address => (loweredSenders told).count address).sum := by
        rw [hcounts]
        exact (hkeys.map _).sum_eq
    _ = (loweredSenders told).length := List.sum_map_count_dedup_eq_length _

/-! ### Their order -/

/-- The senders in the order in which they are shown. -/
def inOrder (counts : SortedMap String Nat) : List (String × Nat) := counts.entries.mergeSort comesFirst

theorem comesFirst_iff {a b : String × Nat} :
    comesFirst a b = true ↔ a.2 < b.2 ∨ a.2 = b.2 ∧ (compare a.1 b.1).isLE = true := by
  rw [Ordering.isLE_iff_ne_gt]
  simp [comesFirst]

theorem comesFirst_trans (a b c : String × Nat) (h : comesFirst a b = true) (h' : comesFirst b c = true) :
    comesFirst a c = true := by
  rw [comesFirst_iff] at *
  rcases h with hless | ⟨hsame, hle⟩ <;> rcases h' with hless' | ⟨hsame', hle'⟩
  · exact .inl (hless.trans hless')
  · exact .inl (hsame' ▸ hless)
  · exact .inl (hsame ▸ hless')
  · exact .inr ⟨hsame.trans hsame', Std.TransCmp.isLE_trans hle hle'⟩

theorem comesFirst_total (a b : String × Nat) : (comesFirst a b || comesFirst b a) = true := by
  rw [Bool.or_eq_true, comesFirst_iff, comesFirst_iff]
  rcases Nat.lt_trichotomy a.2 b.2 with hless | hsame | hless
  · exact .inl (.inl hless)
  · rcases hle : (compare a.1 b.1).isLE
    · have hgt : compare a.1 b.1 = .gt := by simpa [Ordering.isLE_iff_ne_gt] using hle
      exact .inr (.inr ⟨hsame.symm, by rw [Std.OrientedCmp.gt_iff_lt.mp hgt]; rfl⟩)
    · exact .inl (.inr ⟨hsame, rfl⟩)
  · exact .inr (.inl hless)

theorem inOrder_perm (counts : SortedMap String Nat) : (inOrder counts).Perm counts.entries :=
  List.mergeSort_perm _ _

theorem nodup_inOrder (counts : SortedMap String Nat) : ((inOrder counts).map Prod.fst).Nodup :=
  ((inOrder_perm counts).map Prod.fst).nodup_iff.mpr (nodup_keys counts)

/-- No two are equal, so that each comes before the next. -/
theorem inOrder_ascending (counts : SortedMap String Nat) :
    (inOrder counts).Pairwise fun a b => a.2 < b.2 ∨ a.2 = b.2 ∧ a.1 < b.1 := by
  have hsorted : (inOrder counts).Pairwise fun a b => comesFirst a b = true :=
    List.pairwise_mergeSort comesFirst_trans comesFirst_total counts.entries
  have hdistinct : (inOrder counts).Pairwise fun a b => a.1 ≠ b.1 := List.pairwise_map.mp (nodup_inOrder counts)
  refine (hsorted.and hdistinct).imp fun {a b} ⟨hfirst, hne⟩ => ?_
  rcases comesFirst_iff.mp hfirst with hless | ⟨hsame, hle⟩
  · exact .inl hless
  · refine .inr ⟨hsame, ?_⟩
    rcases hcompare : compare a.1 b.1 with _ | _ | _
    · exact compareOfLessAndEq_eq_lt.mp hcompare
    · exact absurd (Std.LawfulEqOrd.eq_of_compare hcompare) hne
    · rw [hcompare] at hle
      cases hle

/-! ### Senders in a store -/

open SearchSpec Mailstore Mailstore.Session
variable {folder : String} {f : Folder} {spec : SearchSpec} {mode : MergeMode}

/-- How many of the messages are from the address, in any letter case. -/
def numberFrom (f : Folder) (uids : UidSet) (address : String) : Nat :=
  uids.toList.countP fun u => (f.messages.find? u).map (fun m => Casing.lower m.sender) == some address

theorem senderOf_items (m : Message) (u : Uid) : senderOf (m.items u [.envelope]) = some m.sender := by
  have hsender : ({ Message.addressOf m.sender with name := m.senderName } : Address).email? = some m.sender :=
    Message.email?_addressOf m.sender
  simp [senderOf, Message.items, Message.item, Message.envelope, hsender]

/-- What a store tells about messages are the items of each that is there, in order. -/
theorem values_told (f : Folder) (attributes : List FetchAttribute) (uids : UidSet) :
    (Session.told f attributes uids).values =
      uids.toList.filterMap fun u => (f.messages.find? u).map fun m => m.items u attributes := by
  have hall : (Session.told f attributes uids).filter (fun u _ => uids.contains u) =
      Session.told f attributes uids := by
    apply SortedMap.ext
    intro u
    rw [SortedMap.find?_filter, find?_told]
    rcases uids.contains u with _ | _
    · rfl
    · rw [if_pos rfl]
      rcases f.messages.find? u with _ | m <;> rfl
  rw [← hall, ← SortedMap.filterMap_find?]
  refine List.filterMap_congr fun u hu => ?_
  rw [find?_told, if_pos (SortedSet.contains_iff.mpr hu)]

theorem loweredSenders_told (f : Folder) (uids : UidSet) :
    loweredSenders (Session.told f [.envelope] uids).values =
      uids.toList.filterMap fun u => (f.messages.find? u).map fun m => Casing.lower m.sender := by
  rw [loweredSenders, values_told, List.filterMap_filterMap, List.map_filterMap]
  refine List.filterMap_congr fun u _ => ?_
  rcases f.messages.find? u with _ | m
  · rfl
  · simp [senderOf_items]

/-- A tally of the senders of messages that are there counts every message once. -/
theorem countSenders_told {uids : UidSet} (h : ∀ u ∈ uids, ∃ m, f.messages.find? u = some m) :
    let counts := countSenders (Session.told f [.envelope] uids).values
    (∀ address n, (address, n) ∈ counts.entries ↔ 0 < n ∧ n = numberFrom f uids address) ∧
      (counts.entries.map Prod.snd).sum = uids.toList.length := by
  refine ⟨fun address n => ?_, ?_⟩
  · rw [mem_countSenders, loweredSenders_told, List.count_filterMap]
    rfl
  · rw [sum_countSenders, loweredSenders_told, List.length_filterMap_eq_countP, List.countP_eq_length]
    intro u hu
    obtain ⟨m, hm⟩ := h u hu
    rw [hm]
    rfl

/-! ### On sessions of their own -/

variable {a : Account Server}

theorem uniqueSenders_fst (folder : String) (spec : SearchSpec) (mode : MergeMode) (a : Account Server) :
    (uniqueSenders folder spec mode a).1 = ((onSession (describe folder spec mode [.envelope]) a).1).map
      fun told => inOrder (countSenders told.values) := by
  rw [uniqueSenders, tellAbout, bind_run]
  rcases onSession (describe folder spec mode [.envelope]) a with ⟨_ | told, after⟩ <;> rfl

theorem uniqueSenders_ok (hf : a.connector.folders.find? folder = some f)
    (haccepts : a.connector.refusesLogin = false)
    (h : ∀ c, a.connector.failing = some c → ¬ Takes f spec mode c) : (uniqueSenders folder spec mode a).1 =
      .ok (inOrder (countSenders (Session.told f [.envelope] (described f spec mode)).values)) := by
  have hdescribe := describe_ok (s := opened a.connector) hf [.envelope] h
  rw [uniqueSenders_fst, onSession_accepted _ haccepts, hdescribe]
  rfl

theorem uniqueSenders_error (hf : a.connector.folders.find? folder = some f)
    (haccepts : a.connector.refusesLogin = false) {c : String} (hc : a.connector.failing = some c)
    (htakes : Takes f spec mode c) :
    (uniqueSenders folder spec mode a).1 = .error (.queryFailed folder (.rejected (.failing c))) := by
  have hdescribe := describe_error (s := opened a.connector) hf [.envelope] hc htakes
  rw [uniqueSenders_fst, onSession_accepted _ haccepts, hdescribe]
  rfl

theorem uniqueSenders_refused (folder : String) (spec : SearchSpec) (mode : MergeMode)
    (h : a.connector.refusesLogin = true) : (uniqueSenders folder spec mode a).1 =
      .error (.authentication a.name (.login "invalid credentials")) := by
  rw [uniqueSenders_fst, onSession_refused _ h]
  rfl

/-- An account counts each message that its search finds once, under its sender in small letters: every address
that occurs is shown once, with the number of its messages, the least frequent first and among equals by
address, and the numbers add up to that of the messages. Only a store that refuses logins, or was told to fail
a command that this takes, gives that failure instead. -/
theorem uniqueSenders_tell (a : Account Server) (folder : String) {f : Folder}
    (hf : a.connector.folders.find? folder = some f) (spec : SearchSpec) (mode : MergeMode) :
    (a.connector.refusesLogin = true → (uniqueSenders folder spec mode a).1 =
      .error (.authentication a.name (.login "invalid credentials"))) ∧
    (a.connector.refusesLogin = false → ∀ c, a.connector.failing = some c → Takes f spec mode c →
      (uniqueSenders folder spec mode a).1 = .error (.queryFailed folder (.rejected (.failing c)))) ∧
    (a.connector.refusesLogin = false → (∀ c, a.connector.failing = some c → ¬ Takes f spec mode c) →
      ∃ found senders, (search folder spec mode a).1 = .ok found ∧
        (uniqueSenders folder spec mode a).1 = .ok senders ∧
        (senders.map Prod.fst).Nodup ∧
        senders.Pairwise (fun a b => a.2 < b.2 ∨ a.2 = b.2 ∧ a.1 < b.1) ∧
        (∀ address n, (address, n) ∈ senders ↔ 0 < n ∧ n = numberFrom f found address) ∧
        (senders.map Prod.snd).sum = found.toList.length) := by
  refine ⟨uniqueSenders_refused folder spec mode,
    fun haccepts c hc htakes => uniqueSenders_error hf haccepts hc htakes, fun haccepts hnone => ?_⟩
  have hthere : ∀ u ∈ described f spec mode, ∃ m, f.messages.find? u = some m :=
    fun u hu => (mem_described.mp hu).imp fun m hm => hm.1
  obtain ⟨hcounts, hsum⟩ := countSenders_told hthere
  refine ⟨_, _, search_ok hf haccepts fun c hc hneed => hnone c hc (.inl hneed),
    uniqueSenders_ok hf haccepts hnone, nodup_inOrder _, inOrder_ascending _, fun address n => ?_, ?_⟩
  · rw [(inOrder_perm _).mem_iff, hcounts]
  · rw [((inOrder_perm _).map Prod.snd).sum_eq, hsum]

/-- Ann's account on a store with two letters from Bob, who writes his address in two ways, and one from
herself, which was told something. -/
def annsLetters (order : Order) : Account Server :=
  { name := "ann"
    connector := (((({} : Server).deliver "INBOX" (letterFrom "bob@b.org")).2.deliver "INBOX"
      (letterFrom "ann@b.org")).2.deliver "INBOX" (letterFrom "Bob@B.org")).2.told order }

/-- Of the three letters one is from Ann and two are from Bob. They are counted unless the store fails to tell
about them. -/
theorem uniqueSenders_tell_letters :
    (∃ senders, (uniqueSenders "INBOX" {} .and (annsLetters {})).1 = .ok senders ∧
      ("ann@b.org", 1) ∈ senders ∧ ("bob@b.org", 2) ∈ senders ∧ (senders.map Prod.snd).sum = 3) ∧
    (uniqueSenders "INBOX" {} .and (annsLetters { failing := some "UID FETCH" })).1 =
      .error (.queryFailed "INBOX" (.rejected (.failing "UID FETCH"))) ∧
    (uniqueSenders "INBOX" {} .and (annsLetters { refusesLogin := true })).1 =
      .error (.authentication "ann" (.login "invalid credentials")) := by
  refine ⟨?_, ?_, ?_⟩
  · obtain ⟨found, senders, hsearch, hok, -, -, hcounts, hsum⟩ :=
      (uniqueSenders_tell (annsLetters {}) "INBOX" rfl {} .and).2.2 rfl nofun
    have hfound : (search "INBOX" {} .and (annsLetters {})).1 =
        .ok (.ofList [Uid.least, ⟨2, by decide, by decide⟩, ⟨3, by decide, by decide⟩]) := by decide +kernel
    obtain rfl := Except.ok.inj (hsearch.symm.trans hfound)
    refine ⟨senders, hok, (hcounts _ _).mpr ?_, (hcounts _ _).mpr ?_, hsum⟩
    · decide +kernel
    · decide +kernel
  · refine (uniqueSenders_tell _ "INBOX" rfl {} .and).2.1 rfl "UID FETCH" rfl (.inr ⟨rfl, ?_⟩)
    decide +kernel
  · exact (uniqueSenders_tell (annsLetters { refusesLogin := true }) "INBOX" rfl {} .and).1 rfl

/-- Where the store fails to tell about messages, the senders of those that are found are not counted. -/
theorem uniqueSenders_without_fetch :
    ¬ ∀ (a : Account Server) (folder : String) (f : Folder), a.connector.folders.find? folder = some f →
      ∀ (spec : SearchSpec) (mode : MergeMode) (found : UidSet), (search folder spec mode a).1 = .ok found →
        ∃ senders, (uniqueSenders folder spec mode a).1 = .ok senders ∧
          (senders.map Prod.snd).sum = found.toList.length := by
  intro h
  have hfound : (search "INBOX" {} .and (annsLetters { failing := some "UID FETCH" })).1 = .ok _ := rfl
  obtain ⟨senders, hok, -⟩ := h _ "INBOX" _ rfl {} .and _ hfound
  cases hok

end Account

end Mailroom
