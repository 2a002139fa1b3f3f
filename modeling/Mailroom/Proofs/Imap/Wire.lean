import Mailroom.Imap.Command
import Mailroom.Imap.Tag
import Mailroom.Proofs.Imap.Tokens
import Mailroom.Proofs.Text.Numerals

/-! Commands on the wire.

What a user names ends up in a command as strings, and the rest of a command are words, numbers and
dates of our own. None of these ends a line or a frame early: `wire_arrives` says that a command is one
frame, however it arrives, and that the strings in it are the ones that were given. -/
namespace Mailroom
open Piece

/-! ### Texts of our own -/

theorem Decimal.wordy_text (n : Nat) : Token.Wordy (text n) := Token.wordy_digits fun _ => isDigit_digits

theorem TagSource.wordy_current (n : UInt32) : Token.Wordy ({ next := n } : TagSource).current := by
  have htag : ({ next := n } : TagSource).current = "A" ++ String.ofList (Decimal.padded 4 n.toNat) :=
    String.toList_inj.mp (by simp [current, tag])
  rw [htag]
  exact Token.wordy_append.mpr ⟨by decide, Token.wordy_digits fun _ => Decimal.isDigit_padded⟩

theorem TagSource.current_ne_nil (n : UInt32) : ({ next := n } : TagSource).current.toList ≠ [] := by
  simp [current, tag]

theorem UidSet.unmarked_text (uids : UidSet) : Unmarked (text uids) := by
  refine unmarked_intercalate (by decide) (List.forall_mem_map.mpr fun range _ => ?_)
  unfold rangeText
  split
  · exact (Decimal.wordy_text _).unmarked
  · simp only [unmarked_append]
    exact ⟨⟨(Decimal.wordy_text _).unmarked, by decide⟩, (Decimal.wordy_text _).unmarked⟩

theorem Date.wordy_yearText (year : Int) : Token.Wordy (yearText year) := by
  have hdigits : Token.Wordy (String.ofList (Decimal.padded 4 year.natAbs)) :=
    Token.wordy_digits fun _ => Decimal.isDigit_padded
  unfold yearText
  dsimp only
  split
  · exact Token.wordy_append.mpr ⟨by decide, hdigits⟩
  · split
    · exact Token.wordy_append.mpr ⟨by decide, hdigits⟩
    · exact hdigits

theorem Date.wordy_monthName (d : Date) : Token.Wordy d.monthName := by
  have hnames : ∀ name ∈ monthNames, Token.Wordy name := by decide
  rw [monthName, List.getD_eq_getElem?_getD]
  rcases hname : monthNames[d.month - 1]? with _ | name
  · decide
  · exact hnames name (List.mem_of_getElem? hname)

theorem Date.wordy_searchText (d : Date) : Token.Wordy d.searchText := by
  simp only [searchText, Token.wordy_append]
  exact ⟨⟨⟨⟨Decimal.wordy_text _, by decide⟩, d.wordy_monthName⟩, by decide⟩, wordy_yearText _⟩

/-! ### Pieces of commands -/

namespace Piece

/-- A piece as commands have them: a text of our own, or a string in one of its forms. -/
inductive Proper : Piece → Prop
  | text {s : String} (h : Unmarked s) : Proper (.text s)
  | string {s : String} {piece : Piece} (h : Spells s piece) : Proper piece

theorem Proper.calm {piece : Piece} (h : Proper piece)
    (hshort : ∀ bytes, piece = .counted bytes → bytes.length ≤ Frame.maxLiteral) : piece.Calm := by
  cases h with
  | text h => exact calm_text h
  | string h => exact h.calm hshort

/-- A word and a string after it. -/
theorem proper_pair {word s : String} (h : Unmarked word) :
    ∀ piece ∈ [text word, Piece.string s], piece.Proper :=
  List.forall_mem_cons.mpr ⟨.text h, List.forall_mem_singleton.mpr (.string (spells_string s))⟩

/-- A word and a date after it. -/
theorem proper_dated {word : String} (date : Date) (h : Unmarked word) :
    ∀ piece ∈ [text word, text date.searchText], piece.Proper :=
  List.forall_mem_cons.mpr ⟨.text h, List.forall_mem_singleton.mpr (.text date.wordy_searchText.unmarked)⟩

theorem proper_ofKey (key : SearchKey) : ∀ piece ∈ ofKey key, piece.Proper := by
  induction key with
  | all => exact List.forall_mem_singleton.mpr (.text (by decide))
  | unseen => exact List.forall_mem_singleton.mpr (.text (by decide))
  | unanswered => exact List.forall_mem_singleton.mpr (.text (by decide))
  | «from» s => exact proper_pair (by decide)
  | «to» s => exact proper_pair (by decide)
  | subject s => exact proper_pair (by decide)
  | since date => exact proper_dated date (by decide)
  | before date => exact proper_dated date (by decide)
  | not key ih => exact List.forall_mem_cons.mpr ⟨.text (by decide), ih⟩

theorem proper_ofKeys (keys : List SearchKey) : ∀ piece ∈ ofKeys keys, piece.Proper := by
  fun_induction ofKeys keys with
  | case1 => exact List.forall_mem_nil _
  | case2 key => exact proper_ofKey key
  | case3 key rest hrest ih =>
    exact List.forall_mem_append.mpr ⟨proper_ofKey key, List.forall_mem_cons.mpr ⟨.text (by decide), ih⟩⟩

end Piece

/-! ### Names and arguments of commands -/

/-- The names of the commands about messages of the open folder. -/
def messageCommands : List String :=
  ["UID SEARCH", "UID FETCH", "UID STORE", "UID COPY", "UID MOVE", "EXPUNGE", "UID EXPUNGE"]

/-- The names of all commands. -/
def commandNames : List String :=
  ["CAPABILITY", "LOGIN", "LOGOUT", "LIST", "SELECT", "EXAMINE", "CREATE", "DELETE", "RENAME"] ++
    messageCommands

theorem Command.name_mem (command : Command) : command.name ∈ commandNames := by
  cases command <;> simp [Command.name, commandNames, messageCommands]

/-- No name of a command begins another. -/
theorem commandNames_apart : ∀ a ∈ commandNames, ∀ b ∈ commandNames, a.toList <+: b.toList → a = b := by
  decide

namespace Command
variable {command : Command} {tag : String} {unasked : Bool}

theorem unmarked_name (command : Command) : Unmarked command.name := by
  cases command <;> simp only [name] <;> decide

theorem unmarked_listText {words : List String} (h : ∀ word ∈ words, Unmarked word) :
    Unmarked (listText words) :=
  unmarked_append.mpr ⟨unmarked_append.mpr ⟨by decide, unmarked_intercalate (by decide) h⟩, by decide⟩

/-- Keywords that are stored have no line feed and no opening brace, as atoms have none. -/
def KeywordsUnmarked (command : Command) : Prop :=
  ∀ uids flags name, command = .addFlags uids flags → .keyword name ∈ flags → Unmarked name

/-- No string is longer than a frame can hold. -/
def StringsShort (command : Command) : Prop :=
  ∀ bytes, .counted bytes ∈ command.arguments → bytes.length ≤ Frame.maxLiteral

theorem proper_arguments (h : command.KeywordsUnmarked) : ∀ piece ∈ command.arguments, piece.Proper := by
  have hspace : (Piece.text " ").Proper := .text (by decide)
  have hshortest : ∀ s, (Piece.shortest s).Proper := fun s => .string (spells_shortest s)
  have hpattern : ∀ s, (Piece.pattern s).Proper := fun s => .string (spells_pattern s)
  have hspaced : ∀ s, Unmarked s → Unmarked (" " ++ s) := fun s hs => unmarked_append.mpr ⟨by decide, hs⟩
  cases command with
  | capability => exact List.forall_mem_nil _
  | logout => exact List.forall_mem_nil _
  | expunge => exact List.forall_mem_nil _
  | login username password => simp [arguments, hspace, hshortest]
  | list reference pattern => simp [arguments, mailboxPiece, hspace, hshortest, hpattern]
  | select mailbox => simp [arguments, mailboxPiece, hspace, hshortest]
  | examine mailbox => simp [arguments, mailboxPiece, hspace, hshortest]
  | create mailbox => simp [arguments, mailboxPiece, hspace, hshortest]
  | delete mailbox => simp [arguments, mailboxPiece, hspace, hshortest]
  | rename old new => simp [arguments, mailboxPiece, hspace, hshortest]
  | search keys =>
    have hcharset : (Piece.text "CHARSET UTF-8 ").Proper := .text (by decide)
    have hall : (Piece.text "ALL").Proper := .text (by decide)
    refine List.forall_mem_cons.mpr ⟨hspace, List.forall_mem_append.mpr ⟨?_, ?_⟩⟩
    · split
      · exact List.forall_mem_singleton.mpr hcharset
      · exact List.forall_mem_nil _
    · split
      · exact List.forall_mem_singleton.mpr hall
      · exact proper_ofKeys keys
  | fetch uids attributes =>
    have hnames : ∀ word ∈ attributes.map FetchAttribute.text, Unmarked word :=
      List.forall_mem_map.mpr fun asked _ => by cases asked <;> decide
    refine List.forall_mem_singleton.mpr (.text ?_)
    simp only [unmarked_append]
    exact ⟨⟨⟨by decide, uids.unmarked_text⟩, by decide⟩, unmarked_listText hnames⟩
  | addFlags uids flags =>
    have hnames : ∀ word ∈ flags.map Flag.text, Unmarked word := by
      refine List.forall_mem_map.mpr fun flag hflag => ?_
      cases flag with
      | keyword name => exact h uids flags name rfl hflag
      | _ => decide
    refine List.forall_mem_singleton.mpr (.text ?_)
    simp only [unmarked_append]
    exact ⟨⟨⟨by decide, uids.unmarked_text⟩, by decide⟩, unmarked_listText hnames⟩
  | copy uids mailbox =>
    refine List.forall_mem_cons.mpr ⟨.text ?_, List.forall_mem_singleton.mpr (hshortest _)⟩
    exact unmarked_append.mpr ⟨hspaced _ uids.unmarked_text, by decide⟩
  | move uids mailbox =>
    refine List.forall_mem_cons.mpr ⟨.text ?_, List.forall_mem_singleton.mpr (hshortest _)⟩
    exact unmarked_append.mpr ⟨hspaced _ uids.unmarked_text, by decide⟩
  | expungeOnly uids => exact List.forall_mem_singleton.mpr (.text (hspaced _ uids.unmarked_text))

/-! ### Commands as pieces -/

/-- The pieces of the command, from its tag on. -/
def pieces (command : Command) (tag : String) : List Piece :=
  .text (tag ++ " ") :: .text command.name :: command.arguments

theorem flatten_partsFrom (part : Bytes) (pieces : List Piece) :
    (Request.partsFrom unasked part pieces).flatten = part ++ wireAll unasked pieces := by
  induction pieces generalizing part with
  | nil => simp [Request.partsFrom, wireAll]
  | cons piece pieces ih =>
    cases piece with
    | plain bytes => rw [Request.partsFrom, ih, wireAll_cons, Piece.wire, List.append_assoc]
    | counted bytes =>
      rw [Request.partsFrom, wireAll_cons, Piece.wire]
      cases unasked <;> simp [ih]

/-- What goes over the wire is the pieces and a line break. -/
theorem wire_eq (command : Command) (tag : String) (unasked : Bool) :
    command.wire tag unasked = wireAll unasked (command.pieces tag) ++ Octet.crlf := by
  have hspace : Utf8.encode (tag ++ " ") = Utf8.encode tag ++ [Octet.space] := Utf8.encode_append ..
  rw [wire, request, Request.parts, flatten_partsFrom, wireAll_append]
  simp [pieces, wireAll, Piece.wire, Piece.text, hspace]

theorem calm_pieces (htag : Unmarked tag) (hkeywords : command.KeywordsUnmarked)
    (hshort : command.StringsShort) : ∀ piece ∈ command.pieces tag, piece.Calm := by
  refine List.forall_mem_cons.mpr ⟨calm_text (unmarked_append.mpr ⟨htag, by decide⟩),
    List.forall_mem_cons.mpr ⟨calm_text command.unmarked_name, fun piece hp => ?_⟩⟩
  exact (proper_arguments hkeywords piece hp).calm fun bytes heq => hshort bytes (heq ▸ hp)

/-! ### Reading the strings of a command -/

/-- For the commands that consist of strings: what stands between tag and strings, and the strings. -/
def spoken? : Command → Option (String × List String)
  | login username password => some ("LOGIN", [username, password])
  | list reference pattern => some ("LIST", [MailboxName.encode reference, MailboxName.encode pattern])
  | select mailbox => some ("SELECT", [MailboxName.encode mailbox])
  | examine mailbox => some ("EXAMINE", [MailboxName.encode mailbox])
  | create mailbox => some ("CREATE", [MailboxName.encode mailbox])
  | delete mailbox => some ("DELETE", [MailboxName.encode mailbox])
  | rename old new => some ("RENAME", [MailboxName.encode old, MailboxName.encode new])
  | copy uids mailbox => some ("UID COPY " ++ uids.text, [MailboxName.encode mailbox])
  | move uids mailbox => some ("UID MOVE " ++ uids.text, [MailboxName.encode mailbox])
  | _ => none

/-- Pieces with a space before each. -/
def spaced (pieces : List Piece) : List Piece := pieces.flatMap fun piece => [.text " ", piece]

theorem length_pieces_le (h : command.spoken? ≠ none) : (command.pieces tag).length ≤ 6 := by
  cases command with
  | capability | logout | search _ | fetch _ _ | addFlags _ _ | expunge | expungeOnly _ => exact absurd rfl h
  | _ => simp [pieces, arguments]

theorem wire_of_name {forms : List Piece} (h : command.arguments = spaced forms) :
    command.wire tag unasked =
      Utf8.encode (tag ++ " " ++ command.name) ++ (wireAll unasked (spaced forms) ++ Octet.crlf) := by
  rw [wire_eq, pieces, h]
  simp [wireAll, Piece.wire, Piece.text, Utf8.encode_append]

theorem wire_of_uids {uids : UidSet} {form : Piece}
    (h : command.arguments = [.text (" " ++ uids.text ++ " "), form]) :
    command.wire tag unasked = Utf8.encode (tag ++ " " ++ (command.name ++ " " ++ uids.text)) ++
      (wireAll unasked (spaced [form]) ++ Octet.crlf) := by
  rw [wire_eq, pieces, h]
  simp [wireAll, spaced, Piece.wire, Piece.text, Utf8.encode_append]

/-- Such a command is its opening and its strings in their forms, with a space before each. -/
theorem wire_spoken {opening : String} {strings : List String}
    (h : command.spoken? = some (opening, strings)) :
    ∃ forms, List.Forall₂ Spells strings forms ∧ command.wire tag unasked =
      Utf8.encode (tag ++ " " ++ opening) ++ (wireAll unasked (spaced forms) ++ Octet.crlf) := by
  have hone : ∀ s, List.Forall₂ Spells [s] [shortest s] := fun s => .cons (spells_shortest s) .nil
  cases command with
  | login username password => cases h; exact ⟨_, .cons (spells_shortest _) (hone _), wire_of_name rfl⟩
  | list reference pattern =>
    cases h
    exact ⟨_, .cons (spells_shortest _) (.cons (spells_pattern _) .nil), wire_of_name rfl⟩
  | select mailbox => cases h; exact ⟨_, hone _, wire_of_name rfl⟩
  | examine mailbox => cases h; exact ⟨_, hone _, wire_of_name rfl⟩
  | create mailbox => cases h; exact ⟨_, hone _, wire_of_name rfl⟩
  | delete mailbox => cases h; exact ⟨_, hone _, wire_of_name rfl⟩
  | rename old new => cases h; exact ⟨_, .cons (spells_shortest _) (hone _), wire_of_name rfl⟩
  | copy uids mailbox => cases h; exact ⟨_, hone _, wire_of_uids rfl⟩
  | move uids mailbox => cases h; exact ⟨_, hone _, wire_of_uids rfl⟩
  | _ => cases h

end Command

/-- So many strings, each after a space. -/
def Cursor.spacedStrings : Nat → Cursor.Reader (List Value)
  | 0 => pure []
  | n + 1 => do
    Cursor.expect Octet.space
    let v ← Cursor.string Cursor.literal
    let rest ← spacedStrings n
    pure (v :: rest)

/-- Strings with a space before each are read up to the end of the line. -/
theorem Cursor.spacedStrings_wire {strings : List String} {forms : List Piece} {unasked : Bool}
    {position : Nat} (h : List.Forall₂ Spells strings forms)
    (hend : position + (wireAll unasked (Command.spaced forms)).length < UInt64.size) :
    ∃ values, spacedStrings strings.length
        ⟨position, wireAll unasked (Command.spaced forms) ++ Octet.crlf⟩ =
          .ok (values, ⟨position + (wireAll unasked (Command.spaced forms)).length, Octet.crlf⟩) ∧
      values.map Value.text? = strings.map some := by
  induction h generalizing position with
  | nil => exact ⟨[], rfl, rfl⟩
  | @cons s form strings forms hspells _ ih =>
    have hwire : wireAll unasked (Command.spaced (form :: forms)) =
        Octet.space :: (form.wire unasked ++ wireAll unasked (Command.spaced forms)) := by
      rfl
    have hstop : (wireAll unasked (Command.spaced forms) ++ Octet.crlf).head? = some Octet.space ∨
        (wireAll unasked (Command.spaced forms) ++ Octet.crlf).head? = some Octet.cr := by
      cases forms with
      | nil => exact .inr rfl
      | cons => exact .inl rfl
    rw [hwire, List.length_cons, List.length_append] at hend
    have hform : position + 1 + (form.wire unasked).length < UInt64.size := by omega
    obtain ⟨v, hv, htext⟩ := string_spells hspells hstop hform
    have hforms : position + 1 + (form.wire unasked).length +
        (wireAll unasked (Command.spaced forms)).length < UInt64.size := by omega
    obtain ⟨values, hvalues, htexts⟩ := ih hforms
    refine ⟨v :: values, ?_, ?_⟩
    · have hfinish : position + (wireAll unasked (Command.spaced (form :: forms))).length = position + 1 +
          (form.wire unasked).length + (wireAll unasked (Command.spaced forms)).length := by
        rw [hwire, List.length_cons, List.length_append]
        omega
      rw [hfinish, hwire, List.length_cons, List.cons_append, List.append_assoc, spacedStrings, bind_apply,
        expect_next]
      dsimp only
      rw [bind_apply, hv]
      dsimp only
      rw [bind_apply, hvalues]
      rfl
    · rw [List.map_cons, List.map_cons, htext, htexts]

/-! ### Commands on the wire -/

/-- A command of strings is far shorter than memory. -/
theorem Command.length_wire_lt {command : Command} {tag : String} {unasked : Bool}
    (hcalm : ∀ piece ∈ command.pieces tag, piece.Calm) (hspoken : command.spoken? ≠ none)
    (hlines : ∀ line ∈ Frame.lines (command.wire tag unasked), line.length ≤ Frame.maxLine) :
    (command.wire tag unasked).length < UInt64.size := by
  have hfits : ∀ piece ∈ command.pieces tag, piece.Fits := fun piece hp => (hcalm piece hp).fits
  have hwire : Frame.lines (command.wire tag unasked) = linesAll unasked [] (command.pieces tag) ++ [[]] := by
    have hall : Frame.lines (wireAll unasked (command.pieces tag) ++ Octet.crlf ++ []) =
        linesAll unasked [] (command.pieces tag) ++ Frame.lines [] :=
      Frame.lines_wire hfits (announced_of_calm hcalm)
    rwa [List.append_nil, ← wire_eq] at hall
  have hle := length_wireAll_le hfits fun l hl =>
    hlines l (hwire ▸ List.mem_append_left _ hl)
  have hpieces : (command.pieces tag).length + 1 ≤ 7 := Nat.succ_le_succ (length_pieces_le hspoken)
  have hbound := Nat.mul_le_mul_right (Frame.maxLine + Frame.maxLiteral) hpieces
  have hsmall : 7 * (Frame.maxLine + Frame.maxLiteral) < UInt64.size := by decide
  have hcrlf : Octet.crlf.length = 2 := rfl
  rw [wire_eq, List.length_append, hcrlf]
  rw [List.length_nil] at hle
  omega

namespace Frame

theorem Intake.unread_of_answer {s : Intake} {frame : Bytes} (h : (calls 1 s).1 = [.ok frame])
    (hs : s.unread = frame) : (calls 1 s).2.unread = [] := by
  have hall := calls_lossless 1 s
  rw [h, hs] at hall
  simpa [Except.toOption] using hall

end Frame

open Mailroom.Frame in
/-- A command is received as one frame, however it arrives, and the strings in it are read back, in
order and up to its line break. -/
theorem wire_arrives {command : Command} {n : UInt32} {unasked : Bool}
    (hkeywords : command.KeywordsUnmarked) (hshort : command.StringsShort)
    (hlines : ∀ line ∈ lines (command.wire ({ next := n } : TagSource).current unasked),
      line.length ≤ maxLine) :
    let tag := ({ next := n } : TagSource).current
    let wire := command.wire tag unasked
    (∀ (arrivals : List Bytes) (hne : [] ∉ arrivals), arrivals.flatten = wire →
      (∀ n, (Intake.calls n ⟨[], arrivals, hne⟩).1 = Intake.answers .closed [wire] n) ∧
        (Intake.calls 1 ⟨[], arrivals, hne⟩).2.unread = []) ∧
    ∀ opening strings, command.spoken? = some (opening, strings) →
      ∃ arguments values, wire = Utf8.encode (tag ++ " " ++ opening) ++ arguments ∧
        Cursor.spacedStrings strings.length ⟨(Utf8.encode (tag ++ " " ++ opening)).length, arguments⟩ =
          .ok (values, ⟨wire.length - 2, Octet.crlf⟩) ∧
        values.map Value.text? = strings.map some := by
  intro tag wire
  have hcalm := Command.calm_pieces (TagSource.wordy_current n).unmarked hkeywords hshort
  have hwhole : Whole wire := by
    show Whole (command.wire tag unasked)
    rw [Command.wire_eq]
    exact whole_of_calm hcalm
  constructor
  · intro arrivals hne harrivals
    have hframe : [wire].flatten = wire := List.flatten_singleton
    have hcalls : ∀ n, (Intake.calls n ⟨[], arrivals, hne⟩).1 = Intake.answers .closed [wire] n :=
      calls_of_whole (List.forall_mem_singleton.mpr hwhole) (hframe.symm ▸ hlines) hne
        (harrivals.trans hframe.symm)
    exact ⟨hcalls, Intake.unread_of_answer (hcalls 1) harrivals⟩
  · intro opening strings hspoken
    obtain ⟨forms, hforms, hwire⟩ := Command.wire_spoken hspoken
    have hlength : wire.length = (Utf8.encode (tag ++ " " ++ opening)).length +
        (wireAll unasked (Command.spaced forms)).length + 2 := by
      show (command.wire tag unasked).length = _
      rw [hwire, List.length_append, List.length_append, ← Nat.add_assoc]
      rfl
    have hend : wire.length < UInt64.size :=
      Command.length_wire_lt hcalm (fun hnone => absurd (hnone ▸ hspoken) nofun) hlines
    have hforward : (Utf8.encode (tag ++ " " ++ opening)).length +
        (wireAll unasked (Command.spaced forms)).length < UInt64.size := by omega
    obtain ⟨values, hvalues, htexts⟩ := Cursor.spacedStrings_wire hforms hforward
    refine ⟨wireAll unasked (Command.spaced forms) ++ Octet.crlf, values, hwire, ?_, htexts⟩
    rw [hvalues, hlength]
    rfl

open Mailroom.Frame in
/-- A name with a quotation mark and a password with a line break and a command in it, which arrive in
two reads. -/
theorem wire_arrives_login :
    let command := Command.login "a\"b" "\r\nA2 LOGOUT"
    let wire := Octet.ofText "A0007 LOGIN \"a\\\"b\" \x7b11\x7d\r\n\r\nA2 LOGOUT\r\n"
    command.KeywordsUnmarked ∧ command.StringsShort ∧
      (∀ line ∈ lines (command.wire ({ next := 7 } : TagSource).current false), line.length ≤ maxLine) ∧
      command.wire ({ next := 7 } : TagSource).current false = wire ∧
      (Intake.calls 2 ⟨[], [Octet.ofText "A0007 LOGIN \"a\\\"b\" \x7b11\x7d\r",
        Octet.ofText "\n\r\nA2 LOGOUT\r\n"], by decide⟩).1 = [.ok wire, .error .closed] ∧
      ∃ arguments values, wire = Utf8.encode "A0007 LOGIN" ++ arguments ∧
        Cursor.spacedStrings 2 ⟨11, arguments⟩ = .ok (values, ⟨36, Octet.crlf⟩) ∧
        values.map Value.text? = [some "a\"b", some "\r\nA2 LOGOUT"] := by
  intro command wire
  have hkeywords : command.KeywordsUnmarked := nofun
  have hshort : command.StringsShort := by
    have harguments : command.arguments = [.text " ", .quoted (Utf8.encode "a\"b"), .text " ",
        .counted (Utf8.encode "\r\nA2 LOGOUT")] := by
      decide +kernel
    intro bytes hmem
    rw [harguments] at hmem
    have hbytes : bytes = Utf8.encode "\r\nA2 LOGOUT" := by simpa [Piece.text, Piece.quoted] using hmem
    rw [hbytes]
    decide +kernel
  have hlines : ∀ line ∈ lines (command.wire ({ next := 7 } : TagSource).current false),
      line.length ≤ maxLine := by
    decide +kernel
  have hwire : command.wire ({ next := 7 } : TagSource).current false = wire := by decide +kernel
  obtain ⟨harrives, hstrings⟩ := wire_arrives (n := 7) hkeywords hshort hlines
  rw [hwire] at harrives hstrings
  obtain ⟨arguments, values, hsplit, hread, htexts⟩ := hstrings "LOGIN" _ rfl
  exact ⟨hkeywords, hshort, hlines, hwire, (harrives _ (by decide) (by decide +kernel)).1 2, arguments, values,
    hsplit, hread, htexts⟩

end Mailroom
