import Mathlib.Data.List.Nodup
import Mailroom.CommandLine.Options
import Mailroom.Toml.Decode

/-! Searches by options and by keys.

A search is asked for by options or written down as a table, and each of the two is read by functions of its
own. Here the options are written as a table (`Options.entries`): the table is understood, and it describes the
search that the options describe, or has the problem that they have (`searchSpec_entries`). -/
namespace Mailroom
open Toml

/-! ### Tables with the keys that are given -/

/-- The table of the keys that have a value. -/
def Toml.given (fields : List (String × Option Toml)) : Entries :=
  fields.filterMap fun (key, v?) => v?.map fun v => (key, v)

namespace Toml
variable {fields : List (String × Option Toml)} {key : String} {v? : Option Toml}

theorem find?_given_of_notMem (h : key ∉ fields.map Prod.fst) : find? key (given fields) = none := by
  rw [find?, List.find?_eq_none.mpr, Option.map_none]
  intro e he hkey
  obtain ⟨⟨k, v?⟩, hmem, hv⟩ := List.mem_filterMap.mp he
  obtain ⟨v, -, rfl⟩ := Option.map_eq_some_iff.mp hv
  exact h (List.mem_map.mpr ⟨_, hmem, beq_iff_eq.mp hkey⟩)

theorem find?_given (hnodup : (fields.map Prod.fst).Nodup) (h : (key, v?) ∈ fields) :
    find? key (given fields) = v? := by
  induction fields with
  | nil => exact absurd h List.not_mem_nil
  | cons field rest ih =>
    obtain ⟨hhead, hrest⟩ := List.nodup_cons.mp hnodup
    obtain rfl | hmem := List.mem_cons.mp h
    · cases v? with
      | none =>
        have hrest : find? key (given rest) = none := find?_given_of_notMem hhead
        exact hrest
      | some v => simp [given, find?]
    · have hne : field.1 ≠ key := fun heq => hhead (heq ▸ List.mem_map_of_mem hmem)
      rw [← ih hrest hmem]
      obtain ⟨k, _ | v⟩ := field
      · rfl
      · simp [given, find?, hne]

/-- An array of texts is read as the texts. -/
theorem texts?_array (texts : List String) : texts? (.array (texts.map .string)) = some (.many texts) := by
  have hread : (texts.map string).mapM text? = some texts := by
    induction texts with
    | nil => rfl
    | cons text rest ih => rw [List.map_cons, List.mapM_cons, ih]; rfl
  rw [texts?, hread, Option.map_some]

end Toml

namespace CommandLine.Options

/-! ### Options as keys -/

/-- Texts, if there are any, as a list. -/
def listed? : List String → Option OneOrMany
  | [] => none
  | texts => some (.many texts)

/-- Texts, if there are any: one alone, or several as a list. -/
def dated? : List String → Option OneOrMany
  | [] => none
  | [text] => some (.one text)
  | texts => some (.many texts)

/-- The search that the options ask for, key by key. -/
def record (o : Options) : SpecRecord where
  senders := listed? o.from
  notSenders := listed? o.notFrom
  recipients := listed? o.to
  date := dated? o.date
  subject := o.subject
  notSubject := o.notSubject
  unread := o.unread
  notReplied := o.notReplied
  attachments := o.attachments
  noAttachments := o.noAttachments

/-- A text, or an array of texts. -/
def textsValue : OneOrMany → Toml
  | .one text => .string text
  | .many texts => .array (texts.map .string)

/-- What is asked for is true, and the rest is not there. -/
def askedValue? (asked : Bool) : Option Toml := if asked then some (.boolean true) else none

/-- The keys that options stand for, with their values if they are given. -/
def fields (o : Options) : List (String × Option Toml) :=
  [("senders", (listed? o.from).map textsValue),
   ("not_senders", (listed? o.notFrom).map textsValue),
   ("recipients", (listed? o.to).map textsValue),
   ("date", (dated? o.date).map textsValue),
   ("subject", o.subject.map .string),
   ("not_subject", o.notSubject.map .string),
   ("unread", askedValue? o.unread),
   ("not_replied", askedValue? o.notReplied),
   ("attachments", askedValue? o.attachments),
   ("no_attachments", askedValue? o.noAttachments)]

/-- The table of the search that the options ask for. -/
def entries (o : Options) : Entries := given o.fields

/-! ### Reading the table -/

section
variable {o : Options} {key : String}

theorem find?_entries {v? : Option Toml} (h : (key, v?) ∈ o.fields) : find? key o.entries = v? := by
  refine find?_given ?_ h
  simp only [fields, List.map_cons, List.map_nil]
  decide

theorem find?_entries_of_notMem (h : key ∉ o.fields.map Prod.fst) : find? key o.entries = none :=
  find?_given_of_notMem h

theorem optional?_texts (texts : Option OneOrMany) (h : (key, texts.map textsValue) ∈ o.fields) :
    optional? texts? o.entries key = some texts := by
  rw [optional?, find?_entries h]
  rcases texts with _ | text | texts
  · rfl
  · rfl
  · exact congrArg (Option.map some) (texts?_array texts)

theorem optional?_text (text : Option String) (h : (key, text.map .string) ∈ o.fields) :
    optional? text? o.entries key = some text := by
  rw [optional?, find?_entries h]
  cases text <;> rfl

theorem optional?_of_notMem {α : Type} {read : Toml → Option α} (h : key ∉ o.fields.map Prod.fst) :
    optional? read o.entries key = some none := by
  rw [optional?, find?_entries_of_notMem h]

theorem withDefault?_asked (asked : Bool) (h : (key, askedValue? asked) ∈ o.fields) :
    withDefault? boolean? false o.entries key = some asked := by
  rw [withDefault?, optional?, find?_entries h]
  cases asked <;> rfl

end

/-- The table of the options is read as the record of the options. -/
theorem ofEntries?_entries (o : Options) : SpecRecord.ofEntries? o.entries = some o.record := by
  have hsince : "since" ∉ o.fields.map Prod.fst := by simp [fields]
  have hbefore : "before" ∉ o.fields.map Prod.fst := by simp [fields]
  rw [SpecRecord.ofEntries?, optional?_texts (listed? o.from) (by simp [fields]),
    optional?_texts (listed? o.notFrom) (by simp [fields]),
    optional?_texts (listed? o.to) (by simp [fields]), optional?_of_notMem hsince,
    optional?_of_notMem hbefore, optional?_texts (dated? o.date) (by simp [fields]),
    optional?_text o.subject (by simp [fields]),
    optional?_text o.notSubject (by simp [fields]),
    withDefault?_asked o.unread (by simp [fields]),
    withDefault?_asked o.notReplied (by simp [fields]),
    withDefault?_asked o.attachments (by simp [fields]),
    withDefault?_asked o.noAttachments (by simp [fields])]
  rfl

/-! ### One search -/

section
open SpecRecord (predicate? addresses rangeOf)

/-- The search of a record, as one row of steps. -/
theorem toSpec_eq (record : SpecRecord) : record.toSpec = (do
    let spec ← record.senders.elim (pure { unread := record.unread })
      fun values => SearchSpec.withSenders { unread := record.unread } values.toList
    let spec := spec.insert? (← predicate? record.notSenders (addresses "not_senders") .notSenders)
    let spec := spec.insert? (← predicate? record.recipients (addresses "recipients") .recipients)
    let spec := spec.insert? (← predicate? record.since Date.ofText .since)
    let spec := spec.insert? (← predicate? record.before Date.ofText .before)
    let spec := spec.insert? (← predicate? record.date rangeOf .date)
    let spec := spec.insert? (record.subject.map .subject)
    let spec := spec.insert? (record.notSubject.map .notSubject)
    let spec := spec.insert? (if record.notReplied then some .notReplied else none)
    let spec := withFilter spec record.attachments .attachments
    pure (withFilter spec record.noAttachments .noAttachments)) := by
  obtain ⟨senders, _, _, _, _, _, _, _, _, notReplied, attachments, noAttachments⟩ := record
  cases senders <;> cases notReplied <;> cases attachments <;> cases noAttachments <;> rfl

theorem withSenders_listed (spec : SearchSpec) (texts : List String) :
    (listed? texts).elim (pure spec) (fun values => spec.withSenders values.toList) =
      withSenders spec texts := by
  cases texts <;> rfl

/-- A list that is given is not empty, so that the addresses in it are taken. -/
theorem predicate?_listed (key : String) (make : List String → Predicate) (texts : List String) :
    predicate? (listed? texts) (addresses key) make = pure (addresses? make texts) := by
  cases texts <;> rfl

theorem predicate?_dated (texts : List String) :
    predicate? (dated? texts) rangeOf .date = range? texts := by
  match texts with
  | [] | [_] => rfl
  | _ :: _ :: _ => exact bind_assoc _ _ _

/-- The options and their record describe the same search, or have the same problem. -/
theorem toSpec_record (o : Options) (today : Date) (h : o.days = none) :
    o.record.toSpec = o.searchSpec today := by
  rw [toSpec_eq, searchSpec, h]
  simp only [record, withSenders_listed, predicate?_listed, predicate?_dated, pure_bind]
  rfl

end

/-- Without days to count back, the options describe the search that their table describes: the table is
understood, and what comes of it is the same search, or the same problem. -/
theorem searchSpec_entries (o : Options) (today : Date) (h : o.days = none) :
    SpecRecord.ofEntries? o.entries = some o.record ∧ o.record.toSpec = o.searchSpec today :=
  ⟨o.ofEntries?_entries, o.toSpec_record today h⟩

/-- Bulk senders, one address and a month, by options and as a table. -/
theorem searchSpec_entries_month :
    let today : Date := ⟨2024, 3, 1, rfl⟩
    let o : Options := { «from» := ["@@", "a@x.org"], date := ["2024-01"], attachments := true }
    o.days = none ∧
    o.entries = [("senders", .array [.string "@@", .string "a@x.org"]), ("date", .string "2024-01"),
      ("attachments", .boolean true)] ∧
    SpecRecord.ofEntries? o.entries = some o.record ∧ o.record.toSpec = o.searchSpec today ∧
    o.searchSpec today = .ok
      { predicates := [.senders ["a@x.org"], .bulkSenders, .date ⟨⟨2024, 1, 1, rfl⟩, ⟨2024, 2, 1, rfl⟩⟩]
        postFilters := [.attachments] } := by
  intro today o
  obtain ⟨hread, hsame⟩ := o.searchSpec_entries today rfl
  exact ⟨rfl, rfl, hread, hsame, rfl⟩

end CommandLine.Options

end Mailroom
