import Mailroom.Proofs.Imap.Following

/-! What can abort the scan of a response.

The functions that scan responses follow those that read them, and so does the scan of a whole line. What
comes of a line is then known from two things: from the reader, which neither looks up nor cuts anything
by its place, and from the scan on the ideal host, which never aborts. -/
namespace Mailroom
open Mailroom.Frame

/-! ### What is in the values of a list -/

open FetchItem in
/-- The items of a list, its values looked up by their places behind the first. -/
theorem FetchItem.readAll_cons (name : Value) (rest : List Value) :
    readAll (name :: rest) =
      match name.text? with
      | none => .error .itemWithoutName
      | some text =>
        match rest[0]? with
        | none => .error (.itemWithoutValue (Ascii.upper text))
        | some (Value.bracketed _) =>
          if rest[1]?.any isOrigin then readAll (rest.drop 3) else readAll (rest.drop 2)
        | some v =>
          ofPair (Ascii.upper text) v >>= fun item =>
            readAll (rest.drop 1) >>= fun items => pure (item.toList ++ items) := by
  rw [readAll.eq_def]
  dsimp only
  rcases name.text? with _ | text
  · rfl
  rcases rest with _ | ⟨v, rest⟩
  · rfl
  cases v with
  | bracketed inside =>
    -- The list may end with the section, or with what comes after it.
    rcases rest with _ | ⟨first, _ | ⟨second, rest⟩⟩
    · rfl
    · exact (ite_self (readAll [])).symm
    · rfl
  | _ => rfl

namespace Scanner

/-- The one code for which the list is cut has a first value. -/
theorem codeOf_eq (values : List Value) : codeOf values = pure (Response.codeOf values) := by
  unfold codeOf Response.codeOf
  rcases values with _ | ⟨first, rest⟩
  · rfl
  rcases hname : first.text? with _ | name
  · rw [List.head?_cons, Option.bind_some, hname]
    rfl
  rw [List.head?_cons, Option.bind_some, hname]
  dsimp only [Option.map_some]
  split
  next h =>
    rw [Option.some.inj h]
    rfl
  next => rfl

/-- Both members of a pair are looked up within it. -/
theorem settings_eq (values : List Value) :
    settings (pairsOf values) = pure (BodyStructure.pairs values) := by
  induction values using pairsOf.induct with
  | case1 first second rest ih =>
    show (match first.text? with
      | none => settings (pairsOf rest)
      | some name =>
        match second.text? with
        | none => settings (pairsOf rest)
        | some value => settings (pairsOf rest) >>= fun found => pure ((name, value) :: found)) = _
    rw [ih, BodyStructure.pairs]
    rcases first.text? with _ | name
    · rfl
    · rcases second.text? with _ | value <;> rfl
  | case2 values h =>
    rcases values with _ | ⟨first, _ | ⟨second, rest⟩⟩
    · rfl
    · rfl
    · exact absurd rfl (h first second rest)

/-- Every name is looked up within the list, and the loop ends with it. -/
theorem itemsFrom_eq (values : List Value) {rounds i : Nat} (h : values.length - i < rounds)
    (items : List FetchItem) :
    itemsFrom values rounds i items = understood ((FetchItem.readAll (values.drop i)).map (items ++ ·)) := by
  induction rounds generalizing i items with
  | zero => exact absurd h (Nat.not_lt_zero _)
  | succ rounds ih =>
    unfold itemsFrom
    split
    next hend =>
      rw [List.drop_eq_nil_of_le hend, FetchItem.readAll]
      show _ = pure (items ++ [])
      rw [List.append_nil]
    next hend =>
    have hlt : i < values.length := Nat.lt_of_not_le hend
    have hmember : member values i = pure values[i] := by
      rw [member, List.getElem?_eq_getElem hlt]
    rw [hmember, pure_bind, List.drop_eq_getElem_cons hlt, FetchItem.readAll_cons]
    rcases values[i].text? with _ | text
    · rfl
    dsimp only
    rw [List.getElem?_drop, List.getElem?_drop, Nat.add_zero, List.drop_drop, List.drop_drop, List.drop_drop]
    have hpair : ∀ v, (understood (FetchItem.ofPair (Ascii.upper text) v) >>= fun item =>
          itemsFrom values rounds (i + 2) (items ++ item.toList)) =
        understood ((FetchItem.ofPair (Ascii.upper text) v >>= fun item =>
          FetchItem.readAll (values.drop (i + 1 + 1)) >>= fun found =>
            pure (item.toList ++ found)).map (items ++ ·)) := by
      intro v
      rcases FetchItem.ofPair (Ascii.upper text) v with reason | item
      · rfl
      · show itemsFrom values rounds (i + 2) (items ++ item.toList) = _
        rw [ih (by omega)]
        show _ = understood ((FetchItem.readAll (values.drop (i + 2)) >>= fun found =>
          pure (item.toList ++ found)).map (items ++ ·))
        rcases FetchItem.readAll (values.drop (i + 2)) with reason | found
        · rfl
        · exact congrArg pure (List.append_assoc items item.toList found)
    rcases values[i + 1]? with _ | v
    · rfl
    cases v with
    | bracketed inside =>
      dsimp only
      split
      · exact ih (by omega) items
      · exact ih (by omega) items
    | _ => exact hpair _

theorem items_eq (values : List Value) : items values = understood (FetchItem.readAll values) := by
  rw [items, itemsFrom_eq values (Nat.lt_succ_of_le (Nat.sub_le _ 0)), List.drop_zero]
  rcases FetchItem.readAll values with reason | found <;> rfl

end Scanner

/-! ### Responses -/

/-- The entry with its name decoded. -/
def Mailbox.Listing.decoded? (entry : Mailbox.Listing) : Option Mailbox.Listing :=
  (MailboxName.decode entry.name).map fun name => { entry with name }

/-- The data with the mailbox name in it decoded. -/
def Untagged.decoded? : Untagged → Option Untagged
  | .listing entry => entry.decoded?.map .listing
  | data => some data

/-- The response with the mailbox name in it decoded. -/
def Response.decoded? : Response → Option Response
  | .untagged data => data.decoded?.map .untagged
  | response => some response

section
variable {line : Bytes} (hshort : line.length < UInt64.size)
include hshort

omit hshort in
theorem understood_follows {α : Type} {x : Except Reason α} (h : x ≠ .error .truncated) :
    Follows line 0 0 some (Scanner.understood x) (Response.understood x) := by
  rcases x with reason | a
  · exact follows_reject fun heq => h (heq ▸ rfl)
  · exact follows_pure a

theorem codeAndText_follows :
    Follows line 0 0 some Scanner.codeAndText (Response.codeAndText Cursor.literal) := by
  refine (eat_follows hshort _).bind fun _ => (eat_follows hshort _).bind fun found => ?_
  refine .ite (fun _ => ?_) fun _ => ?_
  · refine (values_follows hshort _).bind fun inside => (eat_follows hshort _).bind fun _ => ?_
    rw [Scanner.codeOf_eq, pure_bind]
    exact (restOfLine_follows hshort).bind fun text => follows_pure _
  · exact (restOfLine_follows hshort).bind fun text => follows_pure _

theorem spacedList_follows : Follows line 0 0 some Scanner.spacedList (Response.spacedList Cursor.literal) :=
  (expect_follows hshort _).relax.bind fun _ => (expect_follows hshort _).relax.bind fun _ =>
    values_follows hshort _

omit hshort in
/-- The ideal scan takes the name as it is written, and goes on where the actual one aborts. -/
theorem decode_follows (attributes : List Mailbox.Attribute) (delimiter : Option Char) {written : String} :
    Follows line 0 0 Mailbox.Listing.decoded?
      (read >>= fun task => match task.host.decode written with
        | some name => pure ⟨attributes, delimiter, name⟩
        | none => Scanner.abort .mailboxName)
      (match MailboxName.decode written with
        | some name => pure ⟨attributes, delimiter, name⟩
        | none => fun _ => .error (.unreadable .mailboxName)) := by
  intro position hposition
  show SideBySide line 0 _ _
    ((match MailboxName.decode written with
      | some name => pure ⟨attributes, delimiter, name⟩
      | none => Scanner.abort .mailboxName : Scanner Mailbox.Listing) ⟨line, .actual⟩ ⟨position, 0⟩)
    (.ok (⟨attributes, delimiter, written⟩, ⟨position, 0⟩)) _
  rcases hname : MailboxName.decode written with _ | name
  · exact .misnamed (by rw [Mailbox.Listing.decoded?, hname]; rfl)
  · exact .passed position (by rw [Mailbox.Listing.decoded?, hname]; rfl) (Nat.le_refl _) hposition

theorem listing_follows :
    Follows line 0 0 Mailbox.Listing.decoded? Scanner.listing (Response.listing Cursor.literal) := by
  refine (spacedList_follows hshort).bind fun attributes => (expect_follows hshort _).relax.bind fun _ =>
    (value_follows hshort).relax.bind fun delimiter => (expect_follows hshort _).relax.bind fun _ =>
    (string_follows hshort).relax.bind fun name => ?_
  rcases name.text? with _ | written
  · exact follows_reject (by decide)
  · exact decode_follows _ _

theorem numbered_follows (n : Nat) :
    Follows line 0 0 Untagged.decoded? (Scanner.numbered n) (Response.numbered Cursor.literal n) := by
  refine (expect_follows hshort _).relax.bind fun _ => (word_follows hshort).relax.bind fun keyword => ?_
  dsimp only
  generalize Ascii.upper keyword = name
  by_cases hcount : name = "EXISTS"
  · subst hcount
    exact follows_done rfl
  by_cases hrecent : name = "RECENT"
  · subst hrecent
    exact follows_done rfl
  by_cases hexpunge : name = "EXPUNGE"
  · subst hexpunge
    exact follows_done rfl
  by_cases hfetch : name = "FETCH"
  · subst hfetch
    refine (spacedList_follows hshort).bind fun values => ?_
    rw [Scanner.items_eq]
    exact (understood_follows (FetchItem.readAll_untruncated values)).bind fun items => follows_done rfl
  · -- No other keyword is left for the cases of either.
    simp only
    exact follows_done rfl

theorem keyed_follows (keyword : String) :
    Follows line 0 0 Untagged.decoded? (Scanner.keyed keyword) (Response.keyed Cursor.literal keyword) := by
  unfold Scanner.keyed
  split
  · exact (restOfLine_follows hshort).bind fun rest => follows_done rfl
  · exact (listing_follows hshort).map fun entry => rfl
  · exact (listing_follows hshort).map fun entry => rfl
  · exact (restOfLine_follows hshort).bind fun rest =>
      (understood_follows (Response.found_untruncated rest)).bind fun found => follows_done rfl
  · exact (spacedList_follows hshort).bind fun flags => follows_done rfl
  next hcapability hlist hlsub hsearch hflags =>
    unfold Response.keyed
    split
    next => exact absurd rfl hcapability
    next => exact absurd rfl hlist
    next => exact absurd rfl hlsub
    next => exact absurd rfl hsearch
    next => exact absurd rfl hflags
    next => exact follows_done rfl

theorem untaggedData_follows :
    Follows line 0 0 Untagged.decoded? Scanner.untaggedData (Response.untaggedData Cursor.literal) := by
  refine (word_follows hshort).relax.bind fun first => ?_
  rcases Decimal.unsigned? UInt32.size first with _ | n
  · dsimp only
    rcases Condition.read? first with _ | condition
    · exact keyed_follows hshort _
    · exact (codeAndText_follows hshort).bind fun _ => follows_done rfl
  · exact numbered_follows hshort n

theorem completion_follows (tag : String) :
    Follows line 0 0 Response.decoded? (Scanner.completion tag) (Response.completion Cursor.literal tag) := by
  refine (word_follows hshort).relax.bind fun word => ?_
  rcases Condition.read? word with _ | condition
  · exact follows_reject (by simp)
  · exact (codeAndText_follows hshort).bind fun _ => follows_done rfl

theorem response_follows :
    Follows line 0 0 Response.decoded? Scanner.response (Response.response Cursor.literal) := by
  refine (eat_follows hshort _).bind fun more => .ite (fun _ => ?_) fun _ => ?_
  · exact (eat_follows hshort _).bind fun _ => (restOfLine_follows hshort).bind fun text => follows_done rfl
  · refine (word_follows hshort).relax.bind fun tag => (expect_follows hshort _).relax.bind fun _ => ?_
    exact .ite (fun _ => (untaggedData_follows hshort).map fun data => rfl) fun _ =>
      completion_follows hshort tag

end

/-! ### Lines at which the scan aborts -/

/-- A line announces a string for which it is too short, and for which every line is. -/
def Overlong (line : Bytes) : Prop :=
  ∃ position, Scanner.parse .ideal line = .error (.fault position .truncated) ∧ Beyond line position

/-- A line lists a mailbox, and its name cannot be decoded. -/
def Misnamed (line : Bytes) : Prop :=
  ∃ entry, Scanner.parse .ideal line = .ok (.untagged (.listing entry)) ∧
    MailboxName.decode entry.name = none

/-- What stops a scan where the reader meets a fault. -/
def Stop.ofFault : Fault → Stop
  | .malformed position reason => .fault position reason
  | .unreadable .lengthOverflow => .abort .overflow
  | .unreadable .mailboxName => .abort .mailboxName

theorem Response.decoded?_eq_none {response : Response} :
    response.decoded? = none ↔
      ∃ entry, response = .untagged (.listing entry) ∧ MailboxName.decode entry.name = none := by
  rcases response with _ | data | _
  · exact ⟨nofun, nofun⟩
  · cases data with
    | listing entry =>
      simp only [decoded?, Untagged.decoded?, Mailbox.Listing.decoded?, Option.map_eq_none_iff]
      constructor
      · exact fun h => ⟨entry, rfl, h⟩
      · rintro ⟨_, ⟨⟩, h⟩
        exact h
    | _ => exact ⟨nofun, nofun⟩
  · exact ⟨nofun, nofun⟩

/-- A scan of a line by its indices comes to what the reader of responses comes to, with every index, every
cut and every sum of addresses checked, if only the line itself has addresses. It aborts for two reasons,
each on exactly the lines that bring it about: a string that would end beyond all addresses, and a listed
mailbox whose name cannot be decoded. Without these two limits every line would have an answer: it is
the fault of being too short, or the name as it is written. Settings are found as pairs of members. -/
theorem parse_aborts_iff (line : Bytes) (hshort : line.length < UInt64.size) :
    Scanner.parse .actual line = (Response.read line).mapError Stop.ofFault ∧
      (∀ cause, Scanner.parse .actual line = .error (.abort cause) ↔
        cause = .overflow ∧ Overlong line ∨ cause = .mailboxName ∧ Misnamed line) ∧
      (∀ cause, Scanner.parse .ideal line ≠ .error (.abort cause)) ∧
      ∀ values, Scanner.settings (Scanner.pairsOf values) = pure (BodyStructure.pairs values) := by
  have h := response_follows hshort 0 (Nat.zero_le _)
  have hread : Response.response Cursor.literal (.within line 0) =
      Response.response Cursor.literal (Cursor.ofBytes line) := rfl
  unfold FollowsAt at h
  unfold Overlong Misnamed Scanner.parse Response.read
  rw [hread] at h
  generalize Scanner.response ⟨line, .actual⟩ ⟨0, 0⟩ = x, Scanner.response ⟨line, .ideal⟩ ⟨0, 0⟩ = y,
    Response.response Cursor.literal (Cursor.ofBytes line) = z at h ⊢
  cases h with
  | passed position hfinish hlow hline =>
    refine ⟨rfl, fun cause => ⟨nofun, ?_⟩, nofun, Scanner.settings_eq⟩
    rintro (⟨-, _, ⟨⟩, _⟩ | ⟨-, entry, ⟨⟩, hname⟩)
    rw [Response.decoded?_eq_none.mpr ⟨entry, rfl, hname⟩] at hfinish
    cases hfinish
  | fault position reason hline hroom =>
    refine ⟨rfl, fun cause => ⟨nofun, ?_⟩, nofun, Scanner.settings_eq⟩
    rintro (⟨-, _, ⟨⟩, hbeyond⟩ | ⟨-, _, ⟨⟩, _⟩)
    exact absurd hbeyond (hroom rfl)
  | beyond position hline hbeyond =>
    refine ⟨rfl, fun cause => ⟨?_, ?_⟩, nofun, Scanner.settings_eq⟩
    · rintro ⟨⟩
      exact .inl ⟨rfl, position, rfl, hbeyond⟩
    · rintro (⟨rfl, _⟩ | ⟨-, _, ⟨⟩, _⟩)
      rfl
  | misnamed hfinish =>
    refine ⟨rfl, fun cause => ⟨?_, ?_⟩, nofun, Scanner.settings_eq⟩
    · rintro ⟨⟩
      obtain ⟨entry, rfl, hname⟩ := Response.decoded?_eq_none.mp hfinish
      exact .inr ⟨rfl, entry, rfl, hname⟩
    · rintro (⟨-, _, ⟨⟩, _⟩ | ⟨rfl, _⟩)
      rfl

/-- A mailbox whose name is announced to be as long as the largest address. -/
theorem parse_aborts_iff_largest_length :
    (Octet.ofText "* LIST () \"/\" \x7b18446744073709551615\x7d\r\n").length < UInt64.size ∧
      Scanner.parse .actual (Octet.ofText "* LIST () \"/\" \x7b18446744073709551615\x7d\r\n") =
        .error (.abort .overflow) := by
  have hshort :
      (Octet.ofText "* LIST () \"/\" \x7b18446744073709551615\x7d\r\n").length < UInt64.size := by
    decide +kernel
  have hstop : (Scanner.parse .ideal
      (Octet.ofText "* LIST () \"/\" \x7b18446744073709551615\x7d\r\n")).map (fun _ => ()) =
        .error (.fault 38 .truncated) := by
    decide +kernel
  refine ⟨hshort, ((parse_aborts_iff _ hshort).2.1 .overflow).mpr (.inl ⟨rfl, 38, ?_, ?_⟩)⟩
  · generalize Scanner.parse .ideal _ = answer at hstop ⊢
    rcases answer with stop | response
    · cases hstop
      rfl
    · cases hstop
  · exact ⟨18446744073709551615, by decide +kernel, by decide⟩

/-- An ampersand opens a run, which is not base64. -/
example : (Scanner.parse .actual (Octet.ofText "* LIST () \"/\" \"Q&A-Z\"\r\n")).map (fun _ => ()) =
    .error (.abort .mailboxName) := by
  decide +kernel

end Mailroom
