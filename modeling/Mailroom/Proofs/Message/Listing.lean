import Mailroom.Message.Line
import Mailroom.Proofs.Calendar.Moments
import Mailroom.Proofs.Imap.Fetched
import Mailroom.Proofs.Imap.Unbroken
import Mailroom.Proofs.Message.Files

/-! Line ends in a listing.

The line of a message shows the sender and the subject as they are told. Nothing else in it can break it
(`unbroken_ofMessage`), and no line end is in what is told unless the response keeps one
(`ofMessage_in_one_line`). A message whose files come to a size that cannot be counted has no line. A response that announces the lengths of its texts tells any texts at all
(`Letter.read_line`), so the line of one message may be many lines (`ofMessage_forged`). -/
namespace Mailroom
open Cursor

/-! ### Texts -/

section
variable {s t : String}

theorem unbroken_append : Unbroken (s ++ t) ↔ Unbroken s ∧ Unbroken t := by
  simp only [Unbroken, String.toList_append, List.mem_append, not_or]
  tauto

theorem unbroken_ofList {cs : List Char} : Unbroken (String.ofList cs) ↔ '\r' ∉ cs ∧ '\n' ∉ cs := by
  rw [Unbroken, String.toList_ofList]

theorem unbroken_digits {cs : List Char} (h : ∀ c ∈ cs, c.isDigit = true) : Unbroken (String.ofList cs) := by
  refine unbroken_ofList.mpr ⟨fun hmem => ?_, fun hmem => ?_⟩
  · exact absurd (h _ hmem) (by decide)
  · exact absurd (h _ hmem) (by decide)

theorem unbroken_decimal (n : Nat) : Unbroken (Decimal.text n) :=
  unbroken_digits fun _ => Nat.isDigit_of_mem_toDigits (by decide) (by decide)

theorem unbroken_padded (width n : Nat) : Unbroken (String.ofList (Decimal.padded width n)) :=
  unbroken_digits fun _ => Decimal.isDigit_padded

end

theorem Date.unbroken_text (d : Date) : Unbroken d.text := by
  have hyear : Unbroken (yearText d.year) := by
    unfold yearText
    dsimp only
    split
    · exact unbroken_append.mpr ⟨by decide, unbroken_padded _ _⟩
    · split
      · exact unbroken_append.mpr ⟨by decide, unbroken_padded _ _⟩
      · exact unbroken_padded _ _
  have hdash : Unbroken "-" := by decide
  simp only [text, twoDigits, unbroken_append, hyear, hdash, unbroken_padded, true_and]

theorem Size.unbroken_inUnits (size scale : Nat) {units : List String} (h : ∀ unit ∈ units, Unbroken unit) :
    Unbroken (inUnits size scale units) := by
  induction units generalizing scale with
  | nil => exact unbroken_decimal size
  | cons unit rest ih =>
    obtain ⟨hunit, hrest⟩ := List.forall_mem_cons.mp h
    rw [inUnits]
    split
    · have hpoint : Unbroken "." ∧ Unbroken " " := by decide
      simp only [tenthsText, unbroken_append, unbroken_decimal, hpoint, hunit, true_and]
    · exact ih _ hrest

theorem Size.unbroken_text (bytes : Nat) : Unbroken (text bytes) := by
  unfold text
  split
  · exact unbroken_append.mpr ⟨unbroken_decimal bytes, by decide⟩
  · exact unbroken_inUnits _ _ (by decide)

namespace Line
variable {width : Nat} {text : String}

theorem unbroken_blanks (n : Nat) : '\r' ∉ List.replicate n ' ' ∧ '\n' ∉ List.replicate n ' ' := by
  simp [List.mem_replicate]

theorem unbroken_alignRight : Unbroken (alignRight width text) ↔ Unbroken text := by
  rw [alignRight, unbroken_ofList]
  simp only [List.mem_append, unbroken_blanks, false_or]
  rfl

theorem unbroken_alignLeft : Unbroken (alignLeft width text) ↔ Unbroken text := by
  rw [alignLeft, unbroken_ofList]
  simp only [List.mem_append, unbroken_blanks, or_false]
  rfl

/-- Cutting a text does not break it. -/
theorem unbroken_fit (h : Unbroken text) (width : Nat) : Unbroken (fit width text) := by
  unfold fit
  split
  · exact h
  · rw [unbroken_ofList]
    simp only [List.mem_append, not_or]
    exact ⟨⟨fun hmem => h.1 (List.mem_of_mem_take hmem), by decide⟩,
      ⟨fun hmem => h.2 (List.mem_of_mem_take hmem), by decide⟩⟩

theorem unbroken_attachmentText {s : Summary} (h : attachmentText s = some text) : Unbroken text := by
  unfold attachmentText at h
  split at h
  · cases h
    decide
  · obtain ⟨size, -, rfl⟩ := Option.map_eq_some_iff.mp h
    have hfiles : Unbroken (if s.attachments.length = 1 then "file" else "files") := by
      split <;> decide
    have hsigns : Unbroken " [" ∧ Unbroken " " ∧ Unbroken ", " ∧ Unbroken "]" := by decide
    simp only [unbroken_append, unbroken_decimal, hfiles, hsigns, Size.unbroken_text, true_and]

/-- There is a line unless the size of the files cannot be counted. -/
theorem exists_ofMessage {s : Summary} {showNames : Bool} : (∃ line, ofMessage s showNames = some line) ↔
    (s.attachments.map Attachment.size).sum < UInt64.size := by
  rw [← Option.isSome_iff_exists, ofMessage, Option.isSome_map, attachmentText]
  split
  · next hnone =>
    rw [List.isEmpty_iff.mp hnone]
    decide
  · rw [Option.isSome_map, s.attachmentSize_eq]
    simp

/-- What a line shows of the sender. -/
def senderColumn (s : Summary) (showNames : Bool) : String :=
  fit senderWidth (if showNames then s.sender else s.address)

/-- A line is broken by the sender or by the subject, and by nothing else. -/
theorem unbroken_ofMessage {s : Summary} {showNames : Bool} {line : String} (h : ofMessage s showNames = some line) :
    Unbroken line ↔ Unbroken (senderColumn s showNames) ∧ Unbroken s.subject := by
  obtain ⟨files, hfiles, rfl⟩ := Option.map_eq_some_iff.mp h
  have hmarks : ∀ a b c, Unbroken (String.ofList [mark a '*', mark b 'R', mark c 'F']) := by decide
  have hattached : ∀ a, Unbroken (String.ofList [mark a '@']) := by decide
  have hdate : Unbroken (s.date.elim "----------" fun t => t.date.text) := by
    rcases s.date with _ | t
    · decide
    · exact t.date.unbroken_text
  have hblank : Unbroken " " := by decide
  simp only [unbroken_append, hmarks, hblank, unbroken_alignRight, Uid.text, unbroken_decimal, hdate, hattached,
    unbroken_alignLeft, unbroken_attachmentText hfiles, true_and, and_true, senderColumn]

end Line

/-! ### Summaries -/

/-- No text in the summary has a line end. -/
structure Summary.Plain (s : Summary) : Prop where
  address : Unbroken s.address
  name : ∀ name, s.name = some name → Unbroken name
  subject : Unbroken s.subject

theorem Address.Plain.email {a : Address} (h : a.Plain) : Unbroken (a.email?.getD "") := by
  have hempty : Unbroken "" := by decide
  unfold email?
  rcases hmailbox : a.mailbox with _ | mailbox
  · rcases a.host with _ | host <;> exact hempty
  · rcases hhost : a.host with _ | host
    · exact h.mailbox mailbox hmailbox
    · have hat : Unbroken "@" := by decide
      simpa only [Option.getD_some, unbroken_append, hat, and_true] using
        ⟨h.mailbox mailbox hmailbox, h.host host hhost⟩

namespace Summary
variable {items : List FetchItem}

theorem Plain.noteEnvelope {s : Summary} {e : Envelope} (h : s.Plain) (he : e.Plain) :
    (s.noteEnvelope e).Plain := by
  rw [noteEnvelope_eq]
  have hsubject : Unbroken (e.subject.getD "") := by
    rcases htold : e.subject with _ | subject
    · decide
    · exact he.subject subject htold
  rcases hfrom : e.from with _ | ⟨sender, rest⟩
  · exact ⟨h.address, h.name, hsubject⟩
  · have hsender : sender.Plain := he.authors sender (by rw [hfrom]; exact List.mem_cons_self)
    exact ⟨hsender.email, fun name hname => hsender.name name (Option.filter_eq_some_iff.mp hname).1, hsubject⟩

/-- What is told without line ends is summed up without them. -/
theorem ofItems_plain (h : FetchItem.Plain items) (u : Uid) : (ofItems u items).Plain := by
  have hfold : ∀ d : Draft, d.1.Plain → (items.foldl note d).1.Plain := by
    induction items with
    | nil => exact fun d hd => hd
    | cons item rest ih =>
      intro d hd
      refine ih (fun e he => h e (List.mem_cons_of_mem item he)) (note d item) ?_
      cases item with
      | envelope e => exact hd.noteEnvelope (h e List.mem_cons_self)
      | flags flags =>
        rw [note, foldl_noteFlag]
        exact ⟨hd.address, hd.name, hd.subject⟩
      | uid v => exact hd
      | bodyStructure body | size n | internalDate text =>
        rw [note]
        exact ⟨hd.address, hd.name, hd.subject⟩
  have hempty : Unbroken "" := by decide
  have hnone : ∀ name, none = some name → Unbroken name := fun name h => absurd h (Option.some_ne_none name).symm
  obtain ⟨haddress, hname, hsubject⟩ := hfold ({ uid := u }, none) ⟨hempty, hnone, hempty⟩
  exact ⟨haddress, hname, hsubject⟩

theorem Plain.ofMessage {s : Summary} (h : s.Plain) {showNames : Bool} {line : String}
    (hline : Line.ofMessage s showNames = some line) : Unbroken line := by
  refine (Line.unbroken_ofMessage hline).mpr ⟨Line.unbroken_fit ?_ _, h.subject⟩
  cases showNames with
  | true =>
    rw [if_pos rfl, sender]
    rcases hname : s.name with _ | name
    · exact h.address
    · exact h.name name hname
  | false => exact h.address

end Summary

/-! ### Letters -/

/-- The header of a letter. -/
structure Letter where
  subject : String
  name : String
  mailbox : String
  host : String

namespace Letter

def envelope (l : Letter) : Envelope where
  subject := some l.subject
  «from» := [⟨some l.name, some l.mailbox, some l.host⟩]

/-- The values that tell of it, with texts of announced length. -/
def values (l : Letter) : List Value :=
  let text (s : String) : Value := .literal (Utf8.encode s)
  let author : Value := .list [text l.name, .absent, text l.mailbox, text l.host]
  [.atom "ENVELOPE", .list [.absent, text l.subject, .list [author], .absent, .absent, .absent, .absent, .absent,
    .absent, .absent]]

/-- The response that tells of it. -/
def line (l : Letter) : Bytes :=
  Octet.star :: Octet.space :: (Octet.ofDigits 1 ++ Octet.space :: (Utf8.encode "FETCH" ++ Octet.space ::
    Octet.openParen :: (Value.wireAll l.values ++ [Octet.closeParen])))

variable (l : Letter)

theorem toldBy : FetchItem.AllToldBy [.envelope l.envelope] l.values := by
  have hauthor : Address.ToldBy ⟨some l.name, some l.mailbox, some l.host⟩ (.list [.literal (Utf8.encode l.name),
      .absent, .literal (Utf8.encode l.mailbox), .literal (Utf8.encode l.host)]) :=
    .list (.text .literal) (.text .literal) (.text .literal) rfl
  refine .item (by decide +kernel) (.envelope ?_) .nil
  exact .list .absent (.text .literal) (.list (.cons hauthor .nil)) .absent .absent .absent .absent .absent .absent
    .absent

/-- It is read as it is, whatever its texts are. -/
theorem read_line (h : l.line.length < UInt64.size) :
    Response.read (l.line ++ Octet.crlf) = .ok (.untagged (.fetch 1 [.envelope l.envelope])) := by
  have hfits : ∀ v ∈ l.values, Value.Fits maxDepth v := by
    refine (Value.areReadable_iff _ _).mp ?_
    have hword : Value.IsWord "ENVELOPE" := by decide +kernel
    simp [values, Value.areReadable, Value.isReadable, hword, maxDepth]
  exact Response.read_fetched (by decide) (.line (by decide +kernel) l.toldBy hfits (Value.separated_wireAll _)) h

/-- It is summed up as it is. Only a name of blanks is left out. -/
theorem ofItems_envelope (u : Uid) : Summary.ofItems u [.envelope l.envelope] =
    { uid := u
      address := l.mailbox ++ "@" ++ l.host
      name := if Blank.isBlankText l.name then none else some l.name
      subject := l.subject } := by
  have hname : (some l.name).filter (fun name => !Blank.isBlankText name) =
      if Blank.isBlankText l.name then none else some l.name := by
    rw [Option.filter_some]
    rcases Blank.isBlankText l.name with _ | _ <;> rfl
  rw [← hname]
  rfl

end Letter

/-! ### The listing -/

namespace Line
variable {response : Bytes} {n : Nat} {items : List FetchItem}

/-- A message has a line exactly if the size of its files can be counted. Its line is one line exactly if no line
end is in what it shows of the sender and in the subject. If one is, the response that told them announced the
length of a text, or had the line end behind a backslash. Both are let through (`Letter.read_line`,
`Letter.ofItems_envelope`). -/
theorem ofMessage_in_one_line (h : Response.read response = .ok (.untagged (.fetch n items))) (u : Uid)
    (showNames : Bool) :
    let s := Summary.ofItems u items
    ((∃ line, ofMessage s showNames = some line) ↔ (s.attachments.map Attachment.size).sum < UInt64.size) ∧
    ∀ line, ofMessage s showNames = some line →
      (Unbroken line ↔ Unbroken (senderColumn s showNames) ∧ Unbroken s.subject) ∧
      (¬ Unbroken line → ∃ front rest, response = front ++ Octet.closeParen :: rest ∧
        ∃ keeper ∈ keepers, keeper <:+: front) := by
  refine ⟨exists_ofMessage, fun line hline => ⟨unbroken_ofMessage hline, fun hbroken => ?_⟩⟩
  obtain ⟨front, rest, hfront, hplain⟩ := Response.read_plain h
  have hwild : ¬ Tame front := by
    intro htame
    exact hbroken ((Summary.ofItems_plain (hplain htame) u).ofMessage hline)
  obtain ⟨keeper, hkeeper, hinfix⟩ : ∃ keeper ∈ keepers, keeper <:+: front := by simpa [Tame] using hwild
  exact ⟨front, rest, hfront, keeper, hkeeper, hinfix⟩

/-- A letter with a subject that looks like the end of a line and another line. -/
def forged : Letter := ⟨"hi\r\n*      2 2024-01-01", "Ann", "ann", "b.org"⟩

/-- It is listed in two lines, and its response announces the length of its subject. -/
theorem ofMessage_forged :
    Response.read (forged.line ++ Octet.crlf) = .ok (.untagged (.fetch 1 [.envelope forged.envelope])) ∧
    ∃ line, ofMessage (.ofItems .least [.envelope forged.envelope]) false = some line ∧ ¬ Unbroken line ∧
      ∃ front rest, forged.line ++ Octet.crlf = front ++ Octet.closeParen :: rest ∧
        ∃ keeper ∈ keepers, keeper <:+: front := by
  have hread := forged.read_line (by decide +kernel)
  obtain ⟨hexists, hlines⟩ := ofMessage_in_one_line hread .least false
  have hcounted : ((Summary.ofItems .least [.envelope forged.envelope]).attachments.map Attachment.size).sum <
      UInt64.size := by
    rw [forged.ofItems_envelope]
    decide
  obtain ⟨line, hline⟩ := hexists.mpr hcounted
  obtain ⟨honly, hkept⟩ := hlines line hline
  have hbroken : ¬ Unbroken line := by
    rw [honly, forged.ofItems_envelope]
    exact fun h => absurd h.2 (by decide)
  exact ⟨hread, line, hline, hbroken, hkept hbroken⟩

end Line

end Mailroom
