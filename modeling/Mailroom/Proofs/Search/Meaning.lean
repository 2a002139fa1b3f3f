import Mailroom.Proofs.Mailstore.Lookups

/-! What a search describes, message by message.

`SearchSpec.Describes` says of one message whether a search describes it, without a word of how
it is looked for. Finding it takes several queries, whose findings are taken together, and looks
at envelopes and structures. `resolve_describes` is the equality of the two in a mail store: the
identifiers that come out are those of the messages that the search describes. -/
namespace Mailroom
open Mailstore

/-! ### The meaning of a search -/

/-- Whether `part` stands somewhere in `whole`, in any letter case. -/
def Mailstore.Message.Shows (whole part : String) : Prop :=
  (Casing.lower part).toList <:+: (Casing.lower whole).toList

/-- Whether a predicate holds of a message. -/
def Predicate.Holds (m : Message) : Predicate → Prop
  | senders addresses => ∃ a ∈ addresses, Message.Shows m.senderText a
  | notSenders addresses => ¬ ∃ a ∈ addresses, Message.Shows m.senderText a
  | recipients addresses => ∃ a ∈ addresses, Message.Shows m.recipient a
  | since day => day ≤ m.date
  | before day => m.date < day
  | date range => range.since ≤ m.date ∧ m.date < range.before
  | subject text => Message.Shows m.subject text
  | notSubject text => ¬ Message.Shows m.subject text
  | notReplied => Flag.answered ∉ m.flags
  | bulkSenders =>
    ∃ before domain, m.sender.toList = before ++ '@' :: domain ∧ '@' ∉ domain ∧ 32 < domain.length

/-- Whether several predicates hold of a message, all of them or one. If there are none it is
all the same. -/
def MergeMode.Holds (m : Message) (mode : MergeMode) (predicates : List Predicate) : Prop :=
  match mode with
  | and => ∀ p ∈ predicates, p.Holds m
  | or => predicates = [] ∨ ∃ p ∈ predicates, p.Holds m

/-- Whether a message passes a filter, by whether it has a file with a name. -/
def PostFilter.Passes (m : Message) : PostFilter → Prop
  | attachments => ∃ a ∈ m.attachments, a.filename ≠ ""
  | noAttachments => ¬ ∃ a ∈ m.attachments, a.filename ≠ ""

/-- Whether a search describes a message. -/
structure SearchSpec.Describes (spec : SearchSpec) (mode : MergeMode) (m : Message) : Prop where
  unread : spec.unread = true → Flag.seen ∉ m.flags
  holds : mode.Holds m spec.predicates
  passes : ∀ filter ∈ spec.postFilters, filter.Passes m

/-! ### Deciding it -/

namespace Mailstore.Message

theorem isPart_iff {part whole : List Char} : isPart part whole = true ↔ part <:+: whole := by
  induction whole with
  | nil => rw [isPart, List.isEmpty_iff, List.infix_nil]
  | cons c rest ih => rw [isPart, Bool.or_eq_true, List.isPrefixOf_iff_prefix, ih, List.infix_cons_iff]

theorem contains_iff {whole part : String} : contains whole part = true ↔ Shows whole part :=
  isPart_iff

theorem has_iff {m : Message} {flag : Flag} : m.has flag = true ↔ flag ∈ m.flags := by
  rw [has, List.contains_iff_mem]

/-- Whether a predicate finds the message, by how it is put to a server. -/
def meets (m : Message) (p : Predicate) : Bool :=
  match p.plan with
  | .queries queries => queries.any fun keys => keys.all m.isFound
  | .envelopeScan => Bulk.isBulkSender m.sender

/-- A predicate finds the messages of which it holds. -/
theorem meets_iff {m : Message} {p : Predicate} : m.meets p = true ↔ p.Holds m := by
  cases p with
  | bulkSenders => exact Bulk.isBulkSender_iff
  | _ => simp [meets, Predicate.plan, isFound, ← contains_iff, ← has_iff, Predicate.Holds]

/-- Whether several predicates find the message. -/
def meetsAll (m : Message) (mode : MergeMode) (predicates : List Predicate) : Bool :=
  match mode with
  | .and => predicates.all m.meets
  | .or => predicates.isEmpty || predicates.any m.meets

theorem meetsAll_iff {m : Message} {mode : MergeMode} {predicates : List Predicate} :
    m.meetsAll mode predicates = true ↔ mode.Holds m predicates := by
  cases mode <;> simp [meetsAll, MergeMode.Holds, meets_iff]

theorem meetsAll_perm (m : Message) (mode : MergeMode) {order predicates : List Predicate}
    (h : order.Perm predicates) : m.meetsAll mode order = m.meetsAll mode predicates := by
  cases mode with
  | and => exact h.all_eq
  | or => rw [meetsAll, meetsAll, h.isEmpty_eq, h.any_eq]

/-- Whether more predicates find the message, taken together with what was so before. -/
def meetsMore (m : Message) (mode : MergeMode) (before : Bool) (predicates : List Predicate) : Bool :=
  match mode with
  | .and => before && predicates.all m.meets
  | .or => before || predicates.any m.meets

theorem meetsAll_cons (m : Message) (mode : MergeMode) (p : Predicate) (rest : List Predicate) :
    m.meetsAll mode (p :: rest) = m.meetsMore mode (m.meets p) rest := by
  cases mode <;> rfl

theorem meetsMore_cons (m : Message) (mode : MergeMode) (before : Bool) (p : Predicate)
    (rest : List Predicate) :
    m.meetsMore mode before (p :: rest) = m.meetsMore mode (m.meetsMore mode before [p]) rest := by
  cases mode <;> simp [meetsMore, Bool.and_assoc, Bool.or_assoc]

/-- Whether a filter lets the message pass. -/
def passes (m : Message) (filter : PostFilter) : Bool :=
  filter.keeps (m.attachments.filter fun a => a.filename ≠ "").length

theorem passes_iff {m : Message} {filter : PostFilter} : m.passes filter = true ↔ filter.Passes m := by
  cases filter <;> simp [passes, PostFilter.keeps, PostFilter.Passes]

/-- Whether the message counts for a search, read or not. -/
theorem isFound_base {m : Message} {spec : SearchSpec} :
    m.isFound spec.base = true ↔ (spec.unread = true → Flag.seen ∉ m.flags) := by
  unfold SearchSpec.base
  by_cases h : spec.unread = true <;> simp [h, isFound, ← has_iff]

theorem all_restrict (m : Message) (spec : SearchSpec) (keys : List SearchKey) :
    (spec.restrict keys).all m.isFound = (m.isFound spec.base && keys.all m.isFound) := by
  unfold SearchSpec.restrict SearchSpec.base
  by_cases h : spec.unread = true <;> simp [h, isFound]

end Mailstore.Message

/-- Whether a search finds a message. -/
def SearchSpec.finds (spec : SearchSpec) (mode : MergeMode) (m : Message) : Bool :=
  m.isFound spec.base && m.meetsAll mode spec.predicates && spec.postFilters.all m.passes

theorem SearchSpec.finds_iff {spec : SearchSpec} {mode : MergeMode} {m : Message} :
    spec.finds mode m = true ↔ spec.Describes mode m := by
  simp only [finds, Bool.and_eq_true, Message.isFound_base, Message.meetsAll_iff, List.all_eq_true,
    Message.passes_iff]
  constructor
  · rintro ⟨⟨hu, hh⟩, hp⟩
    exact ⟨hu, hh, hp⟩
  · rintro ⟨hu, hh, hp⟩
    exact ⟨⟨hu, hh⟩, hp⟩

instance (spec : SearchSpec) (mode : MergeMode) (m : Message) : Decidable (spec.Describes mode m) :=
  decidable_of_iff _ SearchSpec.finds_iff

theorem SearchSpec.decide_describes (spec : SearchSpec) (mode : MergeMode) (m : Message) :
    decide (spec.Describes mode m) = spec.finds mode m := by
  rw [Bool.eq_iff_iff, decide_eq_true_iff, finds_iff]

/-! ### Finding it -/

namespace Mailstore.Session

/-- A folder of the store is open. -/
structure Open (folder : String) (f : Folder) (s : Session) : Prop where
  selected : ∃ readOnly, s.handle.selected = some (folder, readOnly)
  stored : s.server.folders.find? folder = some f

theorem Open.logged {folder : String} {f : Folder} {s : Session} (h : Open folder f s)
    (log : List String) : Open folder f (s.logged log) := ⟨h.selected, h.stored⟩

end Mailstore.Session

namespace SearchSpec
open Mailstore.Session
variable {folder : String} {f : Folder} {s : Session}

theorem find_looks (h : Open folder f s) (keys : List SearchKey) :
    Looks folder (find folder keys) s (· = "UID SEARCH") (f.matching fun m => keys.all m.isFound) := by
  obtain ⟨readOnly, hs⟩ := h.selected
  exact Looks.request (search_run keys hs h.stored)

/-- Nothing is asked about no messages. -/
theorem fetch_looks (h : Open folder f s) (uids : UidSet) (attributes : List FetchAttribute) :
    Looks folder (Mail.query folder (MailSession.fetch uids attributes)) s
      (fun c => c = "UID FETCH" ∧ uids ≠ .empty) (told f attributes uids) := by
  obtain ⟨readOnly, hs⟩ := h.selected
  by_cases hu : uids = .empty
  · subst hu
    have hrun : fetch .empty attributes s = (.ok (told f attributes .empty), s) :=
      fetch_empty attributes hs
    constructor
    · exact fun _ => ⟨s.server.log, Mail.lift_ok hrun⟩
    · exact fun c _ hneed => absurd rfl hneed.2
  · have hne : uids.isEmpty = false := by
      rw [Bool.eq_false_iff]
      exact mt SortedSet.isEmpty_iff.mp hu
    have hlooks : Looks folder (Mail.query folder (MailSession.fetch uids attributes)) s _ _ :=
      Looks.request (fetch_run attributes hne hs h.stored)
    exact hlooks.congr fun c => (and_iff_left hu).symm

/-- Whichever query finds a message, the message is found. -/
theorem findAny_looks (h : Open folder f s) (p : Message → Bool) (queries : List (List SearchKey)) :
    Looks folder (findAny folder (f.matching p) queries) s (fun c => c = "UID SEARCH" ∧ queries ≠ [])
      (f.matching fun m => p m || queries.any fun keys => keys.all m.isFound) := by
  induction queries generalizing p s with
  | nil =>
    have hsame : f.matching (fun m => p m || [].any fun keys => List.all keys m.isFound) = f.matching p :=
      Folder.matching_congr fun m => Bool.or_false _
    rw [hsame]
    exact (Looks.pure _).congr fun c => ⟨False.elim, fun hc => hc.2 rfl⟩
  | cons keys rest ih =>
    have hrest := fun log => ih (h.logged log) fun m => p m || keys.all m.isFound
    rw [← Folder.matching_union] at hrest
    have hboth : Looks folder (findAny folder (f.matching p) (keys :: rest)) s _ _ :=
      (find_looks h keys).bind hrest
    rw [Folder.matching_congr fun m => Bool.or_assoc _ _ _] at hboth
    refine hboth.congr fun c => ⟨?_, fun hc => .inl hc.1⟩
    exact fun hc => ⟨hc.elim id And.left, List.cons_ne_nil _ _⟩

/-- The commands that looking for a predicate needs. -/
def asksFor (f : Folder) (spec : SearchSpec) (p : Predicate) (c : String) : Prop :=
  match p.plan with
  | .queries queries => c = "UID SEARCH" ∧ queries ≠ []
  | .envelopeScan => c = "UID SEARCH" ∨ c = "UID FETCH" ∧ f.matching (·.isFound spec.base) ≠ .empty

/-- The messages that count and of which a predicate holds. -/
theorem findings_looks (h : Open folder f s) (spec : SearchSpec) (p : Predicate) :
    Looks folder (findings folder spec p) s (spec.asksFor f p)
      (f.matching fun m => m.isFound spec.base && m.meets p) := by
  unfold findings asksFor Message.meets
  cases p.plan with
  | queries queries =>
    have hany := findAny_looks h (fun _ => false) (queries.map spec.restrict)
    have hmeets : ∀ m : Message,
        (false || (queries.map spec.restrict).any fun keys => keys.all m.isFound) =
          (m.isFound spec.base && queries.any fun keys => keys.all m.isFound) := by
      intro m
      simp only [Bool.false_or, List.any_map, Function.comp_def, Message.all_restrict,
        List.and_any_distrib_left]
    rw [Folder.matching_false, Folder.matching_congr hmeets] at hany
    exact hany.congr fun c => by rw [ne_eq, List.map_eq_nil_iff]
  | envelopeScan =>
    have hbase : ∀ m : Message, [spec.base].all m.isFound = m.isFound spec.base := by
      intro m
      rw [List.all_cons, List.all_nil, Bool.and_true]
    have hfind := find_looks h [spec.base]
    rw [Folder.matching_congr hbase] at hfind
    have hscan : Looks folder (scan folder spec) s _ _ := hfind.bind fun log =>
      (fetch_looks (h.logged log) _ [.envelope]).map fun envelopes =>
        (envelopes.filter fun _ items => isFromBulk items).keySet
    rw [keySet_told_filter f [.envelope] _ _ isFromBulk Message.isFromBulk_items] at hscan
    exact hscan

/-- What two predicates find, taken together. -/
theorem merge_matching (f : Folder) (spec : SearchSpec) (mode : MergeMode) (before : Message → Bool)
    (p : Predicate) :
    mode.merge (f.matching fun m => m.isFound spec.base && before m)
        (f.matching fun m => m.isFound spec.base && m.meets p) =
      f.matching fun m => m.isFound spec.base && m.meetsMore mode (before m) [p] := by
  cases mode with
  | and =>
    rw [MergeMode.merge, Folder.matching_inter]
    refine Folder.matching_congr fun m => ?_
    cases m.isFound spec.base <;> simp [Message.meetsMore]
  | or =>
    rw [MergeMode.merge, Folder.matching_union]
    refine Folder.matching_congr fun m => ?_
    cases m.isFound spec.base <;> simp [Message.meetsMore]

theorem mergeFindings_looks (h : Open folder f s) (spec : SearchSpec) (mode : MergeMode)
    (before : Message → Bool) (predicates : List Predicate) :
    Looks folder (mergeFindings folder spec mode (f.matching fun m => m.isFound spec.base && before m)
        predicates) s (fun c => ∃ p ∈ predicates, spec.asksFor f p c)
      (f.matching fun m => m.isFound spec.base && m.meetsMore mode (before m) predicates) := by
  induction predicates generalizing before s with
  | nil =>
    have hnone : f.matching (fun m => m.isFound spec.base && m.meetsMore mode (before m) []) =
        f.matching fun m => m.isFound spec.base && before m := by
      cases mode <;> simp [Message.meetsMore]
    rw [hnone]
    exact (Looks.pure _).congr fun c => by simp
  | cons p rest ih =>
    have hrest := fun log => ih (h.logged log) fun m => m.meetsMore mode (before m) [p]
    rw [← merge_matching] at hrest
    have hboth : Looks folder (mergeFindings folder spec mode
        (f.matching fun m => m.isFound spec.base && before m) (p :: rest)) s _ _ :=
      (findings_looks h spec p).bind hrest
    simp only [← Message.meetsMore_cons] at hboth
    exact hboth.congr fun c => by simp

/-- The commands that putting the predicates to the server needs. -/
def asks (f : Folder) (spec : SearchSpec) (c : String) : Prop :=
  spec.predicates = [] ∧ c = "UID SEARCH" ∨ ∃ p ∈ spec.predicates, spec.asksFor f p c

theorem query_looks (h : Open folder f s) (spec : SearchSpec) (mode : MergeMode) :
    Looks folder (query folder spec mode) s (spec.asks f)
      (f.matching fun m => m.isFound spec.base && m.meetsAll mode spec.predicates) := by
  unfold query asks
  rcases spec.predicates with _ | ⟨p, rest⟩
  · have hall : ∀ m : Message, [spec.base].all m.isFound = (m.isFound spec.base && m.meetsAll mode []) := by
      intro m
      cases mode <;> simp [Message.meetsAll]
    have hfind := find_looks h [spec.base]
    rw [Folder.matching_congr hall] at hfind
    exact hfind.congr fun c => by simp
  · have hrest := fun log => mergeFindings_looks (h.logged log) spec mode (·.meets p) rest
    have hboth : Looks folder (findings folder spec p >>= fun found =>
        mergeFindings folder spec mode found rest) s _ _ := (findings_looks h spec p).bind hrest
    simp only [← Message.meetsAll_cons] at hboth
    exact hboth.congr fun c => by simp

theorem narrow_looks (h : Open folder f s) (p : Message → Bool) (filter : PostFilter) :
    Looks folder (narrow folder (f.matching p) filter) s
      (fun c => c = "UID FETCH" ∧ f.matching p ≠ .empty) (f.matching fun m => p m && m.passes filter) := by
  have hkeep : ∀ (m : Message) (u : Uid),
      filter.keeps (attachmentCount (m.items u [.bodyStructure])) = m.passes filter := by
    intro m u
    rw [Message.attachmentCount_items, Message.passes]
  rw [← keySet_told_filter f [.bodyStructure] p _ (fun items => filter.keeps (attachmentCount items)) hkeep]
  unfold narrow
  by_cases hu : f.matching p = .empty
  · rw [hu]
    exact (Looks.pure _).congr fun c => ⟨False.elim, fun hc => hc.2 rfl⟩
  · have hne : (f.matching p).isEmpty = false := by
      rw [Bool.eq_false_iff]
      exact mt SortedSet.isEmpty_iff.mp hu
    rw [hne, if_neg Bool.false_ne_true]
    have hboth := (fetch_looks h (f.matching p) [.bodyStructure]).map fun structures =>
      (structures.filter fun _ items => filter.keeps (attachmentCount items)).keySet
    exact hboth

theorem narrowAll_looks (h : Open folder f s) (p : Message → Bool) (filters : List PostFilter) :
    Looks folder (narrowAll folder (f.matching p) filters) s
      (fun c => c = "UID FETCH" ∧ f.matching p ≠ .empty ∧ filters ≠ [])
      (f.matching fun m => p m && filters.all m.passes) := by
  induction filters generalizing p s with
  | nil =>
    have hnone : f.matching (fun m => p m && [].all m.passes) = f.matching p :=
      Folder.matching_congr fun m => Bool.and_true _
    rw [hnone]
    exact (Looks.pure _).congr fun c => by simp
  | cons filter rest ih =>
    have hrest := fun log => ih (h.logged log) fun m => p m && m.passes filter
    have hboth : Looks folder (narrowAll folder (f.matching p) (filter :: rest)) s _ _ :=
      (narrow_looks h p filter).bind hrest
    simp only [Bool.and_assoc] at hboth
    refine hboth.congr fun c => ⟨?_, fun hc => .inl ⟨hc.1, hc.2.1⟩⟩
    rintro (⟨hc, hne⟩ | ⟨hc, hne, -⟩)
    · exact ⟨hc, hne, List.cons_ne_nil _ _⟩
    · refine ⟨hc, fun hp => hne ?_, List.cons_ne_nil _ _⟩
      -- what is left of nothing is nothing
      apply SortedSet.ext
      intro u
      have hu : u ∉ f.matching p := by
        rw [hp]
        exact SortedSet.not_mem_empty u
      rw [Folder.mem_matching] at hu ⊢
      simp only [SortedSet.not_mem_empty, iff_false]
      rintro ⟨m, hm, hpq⟩
      exact hu ⟨m, hm, (Bool.and_eq_true _ _ ▸ hpq).1⟩

/-- The messages that a search describes. -/
def described (f : Folder) (spec : SearchSpec) (mode : MergeMode) : UidSet :=
  f.matching (spec.finds mode)

theorem mem_described {spec : SearchSpec} {mode : MergeMode} {u : Uid} :
    u ∈ described f spec mode ↔ ∃ m, f.messages.find? u = some m ∧ spec.Describes mode m := by
  rw [described, Folder.mem_matching]
  simp only [finds_iff]

/-- The commands that a search needs. The structures are asked for only where there is something
to filter, and a filter. -/
def Needs (f : Folder) (spec : SearchSpec) (mode : MergeMode) (c : String) : Prop :=
  c = "EXAMINE" ∨ spec.asks f c ∨
    c = "UID FETCH" ∧
      (f.matching fun m => m.isFound spec.base && m.meetsAll mode spec.predicates) ≠ .empty ∧
        spec.postFilters ≠ []

/-- Once the folder is open, a search is a look-up. -/
theorem search_looks (h : Open folder f s) (spec : SearchSpec) (mode : MergeMode) :
    Looks folder (query folder spec mode >>= fun found => narrowAll folder found spec.postFilters) s
      (fun c => spec.asks f c ∨
        c = "UID FETCH" ∧
          (f.matching fun m => m.isFound spec.base && m.meetsAll mode spec.predicates) ≠ .empty ∧
            spec.postFilters ≠ [])
      (described f spec mode) :=
  (query_looks h spec mode).bind fun log => narrowAll_looks (h.logged log) _ spec.postFilters

theorem opening_open {readOnly : Bool} (command : Command) (hf : s.server.folders.find? folder = some f) :
    Open folder f ((s.asked command).opening folder readOnly) := ⟨⟨readOnly, rfl⟩, hf⟩

/-- A search that needs no failing command leaves the folder open and everything else as it was. -/
theorem resolve_ok (hf : s.server.folders.find? folder = some f) (spec : SearchSpec) (mode : MergeMode)
    (hc : ∀ c, s.server.failing = some c → ¬ spec.Needs f mode c) :
    ∃ log, resolve folder spec mode s =
      (.ok (described f spec mode), (s.opening folder true).logged log) := by
  have hv : s.verdict (openingCommand folder true) = .ok () := verdict_ok fun h => hc _ h (.inl rfl)
  have hselect := selectFolder_run true hf
  rw [hv] at hselect
  obtain ⟨log, hlooks⟩ := (search_looks (opening_open _ hf) spec mode).finds fun c h hneed =>
    hc c h (.inr hneed)
  exact ⟨log, (bind_ok (Mail.lift_ok hselect)).trans hlooks⟩

/-- A search that needs a failing command fails with it. -/
theorem resolve_error (hf : s.server.folders.find? folder = some f) (spec : SearchSpec) (mode : MergeMode)
    {c : String} (hc : s.server.failing = some c) (hneed : spec.Needs f mode c) :
    (resolve folder spec mode s).1 = .error (.queryFailed folder (.rejected (.failing c))) ∧
      (resolve folder spec mode s).2.server.folders = s.server.folders := by
  by_cases hexamine : c = "EXAMINE"
  · subst hexamine
    have hselect := selectFolder_run true hf
    rw [verdict_error hc] at hselect
    have hrun : resolve folder spec mode s = _ := bind_error (Mail.lift_error hselect)
    rw [hrun]
    exact ⟨rfl, rfl⟩
  · have hv : s.verdict (openingCommand folder true) = .ok () := by
      refine verdict_ok fun h => hexamine ?_
      rw [hc] at h
      exact Option.some.inj h
    have hselect := selectFolder_run true hf
    rw [hv] at hselect
    obtain ⟨log, hlooks⟩ := (search_looks (opening_open _ hf) spec mode).fails c hc
      (hneed.resolve_left hexamine)
    have hrun : resolve folder spec mode s = _ := (bind_ok (Mail.lift_ok hselect)).trans hlooks
    rw [hrun]
    exact ⟨rfl, rfl⟩

/-! ### The order of the predicates -/

/-- The search with its predicates in another order. -/
def reordered (spec : SearchSpec) (order : List Predicate) : SearchSpec :=
  { spec with predicates := order }

variable {spec : SearchSpec} {order : List Predicate}

theorem described_reordered (f : Folder) (mode : MergeMode) (h : order.Perm spec.predicates) :
    described f (spec.reordered order) mode = described f spec mode := by
  refine Folder.matching_congr fun m => ?_
  show (m.isFound spec.base && m.meetsAll mode order && spec.postFilters.all m.passes) = spec.finds mode m
  rw [m.meetsAll_perm mode h, finds]

theorem needs_reordered (f : Folder) (mode : MergeMode) (h : order.Perm spec.predicates) (c : String) :
    (spec.reordered order).Needs f mode c ↔ spec.Needs f mode c := by
  have hcount : ∀ m : Message, (m.isFound spec.base && m.meetsAll mode order) =
      (m.isFound spec.base && m.meetsAll mode spec.predicates) := by
    intro m
    rw [m.meetsAll_perm mode h]
  have hasks : (spec.reordered order).asks f c ↔ spec.asks f c := by
    refine or_congr (and_congr_left' ?_) (exists_congr fun p => and_congr_left' h.mem_iff)
    show order = [] ↔ spec.predicates = []
    rw [← List.isEmpty_iff, ← List.isEmpty_iff, h.isEmpty_eq]
  show (c = "EXAMINE" ∨ (spec.reordered order).asks f c ∨ c = "UID FETCH" ∧
    (f.matching fun m => m.isFound spec.base && m.meetsAll mode order) ≠ .empty ∧
      spec.postFilters ≠ []) ↔ _
  rw [hasks, Folder.matching_congr hcount]
  rfl

/-- What comes of a search does not depend on the order of its predicates. -/
theorem resolve_reordered (hf : s.server.folders.find? folder = some f) (mode : MergeMode)
    (h : order.Perm spec.predicates) :
    (resolve folder (spec.reordered order) mode s).1 = (resolve folder spec mode s).1 := by
  by_cases hneed : ∃ c, s.server.failing = some c ∧ spec.Needs f mode c
  · obtain ⟨c, hc, hneed⟩ := hneed
    rw [(resolve_error hf spec mode hc hneed).1,
      (resolve_error hf _ mode hc ((needs_reordered f mode h c).mpr hneed)).1]
  · have hnone : ∀ c, s.server.failing = some c → ¬ spec.Needs f mode c :=
      fun c hc hn => hneed ⟨c, hc, hn⟩
    obtain ⟨log, hrun⟩ := resolve_ok hf spec mode hnone
    obtain ⟨log', hrun'⟩ := resolve_ok hf (spec.reordered order) mode fun c hc hn =>
      hnone c hc ((needs_reordered f mode h c).mp hn)
    rw [hrun, hrun', described_reordered f mode h]

/-! ### The search as a whole -/

/-- A search in a folder of a mail store finds the messages that it describes, unless the store
was told to fail a command that it needs. Either way the folders stay as they are, and the order
of the predicates does not matter. -/
theorem resolve_describes (s : Session) (hf : s.server.folders.find? folder = some f) (spec : SearchSpec)
    (mode : MergeMode) :
    ((∀ c, s.server.failing = some c → ¬ spec.Needs f mode c) →
      ∃ found, (resolve folder spec mode s).1 = .ok found ∧
        ∀ u, u ∈ found ↔ ∃ m, f.messages.find? u = some m ∧ spec.Describes mode m) ∧
    (∀ c, s.server.failing = some c → spec.Needs f mode c →
      (resolve folder spec mode s).1 = .error (.queryFailed folder (.rejected (.failing c)))) ∧
    (resolve folder spec mode s).2.server.folders = s.server.folders ∧
    ∀ order, order.Perm spec.predicates →
      (resolve folder (spec.reordered order) mode s).1 = (resolve folder spec mode s).1 := by
  refine ⟨?_, ?_, ?_, fun order h => resolve_reordered hf mode h⟩
  · intro hnone
    obtain ⟨log, hrun⟩ := resolve_ok hf spec mode hnone
    exact ⟨described f spec mode, by rw [hrun], fun u => mem_described⟩
  · intro c hc hneed
    exact (resolve_error hf spec mode hc hneed).1
  · by_cases hneed : ∃ c, s.server.failing = some c ∧ spec.Needs f mode c
    · obtain ⟨c, hc, hneed⟩ := hneed
      exact (resolve_error hf spec mode hc hneed).2
    · obtain ⟨log, hrun⟩ := resolve_ok hf spec mode fun c hc hn => hneed ⟨c, hc, hn⟩
      rw [hrun]
      rfl

/-- A message without a subject. -/
def letterFrom (sender : String) : Message := { sender, subject := "" }

/-- A session on a store with a letter of Ann's and one of Bob's. -/
def annAndBob (capabilities : List Capability) : Session where
  server := ((({ capabilities } : Server).deliver "INBOX" (letterFrom "ann@b.org")).2.deliver
    "INBOX" (letterFrom "bob@b.org")).2
  handle := { capabilities }

theorem resolve_describes_ann :
    ∃ found, (resolve "INBOX" { predicates := [.senders ["ANN@"]], postFilters := [.noAttachments] } .and
      (annAndBob [])).1 = .ok found ∧ Uid.least ∈ found := by
  have hf : (annAndBob []).server.folders.find? "INBOX" = some _ := rfl
  have hmeaning := resolve_describes (annAndBob []) hf
    { predicates := [.senders ["ANN@"]], postFilters := [.noAttachments] } .and
  obtain ⟨found, hok, hfound⟩ := hmeaning.1 fun c hc => by cases hc
  have hann : SearchSpec.Describes { predicates := [.senders ["ANN@"]], postFilters := [.noAttachments] }
      .and (letterFrom "ann@b.org") := by decide +kernel
  exact ⟨found, hok, (hfound Uid.least).mpr ⟨_, rfl, hann⟩⟩

/-- Where the store fails searches, a search of a folder tells nothing of its messages. -/
theorem resolve_without_search :
    ¬ ∀ (folder : String) (f : Folder) (s : Session), s.server.folders.find? folder = some f →
      ∀ (spec : SearchSpec) (mode : MergeMode), ∃ found, (resolve folder spec mode s).1 = .ok found ∧
        ∀ u, u ∈ found ↔ ∃ m, f.messages.find? u = some m ∧ spec.Describes mode m := by
  intro h
  let s : Session := ⟨{ failing := some "UID SEARCH" }, { capabilities := [] }⟩
  have hf : s.server.folders.find? "INBOX" = some {} := rfl
  obtain ⟨found, hok, -⟩ := h "INBOX" {} s hf {} .and
  have hneed : SearchSpec.Needs {} {} .and "UID SEARCH" := .inr (.inl (.inl ⟨rfl, rfl⟩))
  rw [(resolve_error hf {} .and rfl hneed).1] at hok
  cases hok

end SearchSpec

end Mailroom
