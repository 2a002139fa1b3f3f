import Mailroom.Proofs.Message.Items
import Mathlib.Algebra.GroupWithZero.Nat
import Mathlib.Data.List.Forall2
import Mathlib.Data.List.Lex

/-! Which parts of a message are files that come with it.

A part is found at a place, the numbers of the parts on the way to it. `IsFile` says what makes a part a file,
without a word on how files are collected. The files of a body are those of its parts, each once and in the
order of the places (`lists_all`). Their sizes are added up one by one, and what they come to is known exactly as
long as 64 bits can count it (`files_counted`). -/
namespace Mailroom

/-! ### Settings -/

/-- This is the value of the first setting with the name, in any letter case. -/
def Parameter.FirstNamed (name : String) (parameters : List Parameter) (value : String) : Prop :=
  ∃ before written after, parameters = before ++ (written, value) :: after ∧
    Ascii.same written name = true ∧ ∀ p ∈ before, Ascii.same p.1 name = false

theorem Parameter.find?_eq_some_iff {name value : String} {parameters : List Parameter} :
    find? name parameters = some value ↔ FirstNamed name parameters value := by
  unfold find?
  rw [Option.map_eq_some_iff]
  simp only [List.find?_eq_some_iff_append, Bool.not_eq_true']
  constructor
  · rintro ⟨⟨written, value⟩, ⟨hsame, before, after, hsplit, hbefore⟩, rfl⟩
    exact ⟨before, written, after, hsplit, hsame, hbefore⟩
  · rintro ⟨before, written, after, hsplit, hsame, hbefore⟩
    exact ⟨(written, value), ⟨hsame, before, after, hsplit, hbefore⟩, rfl⟩

theorem Parameter.find?_eq_none_iff {name : String} {parameters : List Parameter} :
    find? name parameters = none ↔ ∀ value, ¬ FirstNamed name parameters value := by
  rw [Option.eq_none_iff_forall_ne_some]
  simp only [ne_eq, find?_eq_some_iff]

/-! ### Places -/

namespace BodyStructure

/-- The parts of a body: those of a container, or the message that it carries. -/
def parts : BodyStructure → List BodyStructure
  | single .. => []
  | message _ body _ => [body]
  | multipart _ parts _ => parts

/-- The part at a place. -/
def at? : List Nat → BodyStructure → Option BodyStructure
  | [], body => some body
  | i :: place, body => body.parts[i]?.bind (at? place)

end BodyStructure

/-! ### Files -/

namespace Attachment
open BodyStructure Parameter

/-- The part is a file with this name and size: an application or an image that wants to be kept apart, whose
disposition gives the name, or, if that says nothing of a file name, which has it of its own. -/
inductive IsFile : BodyStructure → Attachment → Prop
  | part {mediaType subtype filename : String} {parameters : List Parameter} {size : Nat} {d : Disposition}
    (htype : Ascii.same mediaType "application" = true ∨ Ascii.same mediaType "image" = true)
    (hkept : Ascii.same d.kind "attachment" = true)
    (hname : FirstNamed "filename" d.parameters filename ∨
      (∀ other, ¬ FirstNamed "filename" d.parameters other) ∧ FirstNamed "name" parameters filename)
    (hnamed : filename ≠ "") : IsFile (.single mediaType subtype parameters size (some d)) ⟨filename, size⟩

theorem nameOf_eq_some_iff {d : Disposition} {parameters : List Parameter} {filename : String} :
    nameOf d parameters = some filename ↔ (FirstNamed "filename" d.parameters filename ∨
      (∀ other, ¬ FirstNamed "filename" d.parameters other) ∧ FirstNamed "name" parameters filename) ∧
      filename ≠ "" := by
  rw [nameOf, Option.filter_eq_some_iff, Option.or_eq_some_iff, find?_eq_some_iff, find?_eq_some_iff,
    find?_eq_none_iff]
  simp

/-- A part without parts is a file if it says so. -/
theorem isFile_single {mediaType subtype : String} {parameters : List Parameter} {size : Nat}
    {disposition : Option Disposition} {a : Attachment} :
    IsFile (.single mediaType subtype parameters size disposition) a ↔
      ofPart mediaType parameters size disposition = some a := by
  constructor
  · intro h
    cases h with
    | @part _ _ filename _ _ d htype hkept hname hnamed =>
      have hfile : (d.isAttachment && isFileType mediaType) = true := by
        simp [Disposition.isAttachment, isFileType, hkept, htype]
      rw [ofPart, if_pos hfile, nameOf_eq_some_iff.mpr ⟨hname, hnamed⟩]
      rfl
  · intro h
    unfold ofPart at h
    split at h
    · cases h
    · next d =>
      split at h
      · next hfile =>
        obtain ⟨hkept, htype⟩ := Bool.and_eq_true_iff.mp hfile
        obtain ⟨filename, hname, rfl⟩ := Option.map_eq_some_iff.mp h
        obtain ⟨hname, hnamed⟩ := nameOf_eq_some_iff.mp hname
        exact .part (Bool.or_eq_true_iff.mp htype) hkept hname hnamed
      · cases h

/-- The part at the place is this file. -/
def FileAt (body : BodyStructure) (place : List Nat) (a : Attachment) : Prop :=
  ∃ part, body.at? place = some part ∧ IsFile part a

/-- The part at the place below one of the parts is this file. -/
def FileBelow (parts : List BodyStructure) : List Nat → Attachment → Prop
  | [], _ => False
  | i :: place, a => ∃ part, parts[i]? = some part ∧ FileAt part place a

/-! ### All files -/

/-- The places are those where there are files, in order, and the files are those at the places. -/
structure Lists (found : List Nat → Attachment → Prop) (places : List (List Nat)) (files : List Attachment) :
    Prop where
  inOrder : places.Pairwise (· < ·)
  mem_iff : ∀ place, place ∈ places ↔ ∃ a, found place a
  each : List.Forall₂ found places files

/-- The place below the next part. -/
def shift : List Nat → List Nat
  | [] => []
  | i :: place => (i + 1) :: place

variable {body part : BodyStructure} {rest : List BodyStructure} {places others : List (List Nat)}
  {files more : List Attachment} {place : List Nat} {a : Attachment}

theorem fileBelow_zero : FileBelow (part :: rest) (0 :: place) a ↔ FileAt part place a := by
  simp [FileBelow]

theorem fileBelow_shift (h : FileBelow rest place a) (first : BodyStructure) :
    FileBelow (first :: rest) (shift place) a := by
  cases place with
  | nil => cases h
  | cons i tail => exact h

theorem shift_lt {other : List Nat} (h : place < other) (hdeep : place ≠ []) : shift place < shift other := by
  cases place with
  | nil => exact absurd rfl hdeep
  | cons i tail =>
    cases other with
    | nil => cases h
    | cons j tail' =>
      refine List.cons_lt_cons_iff.mpr ((List.cons_lt_cons_iff.mp h).imp Nat.succ_lt_succ ?_)
      exact fun ⟨hsame, hless⟩ => ⟨congrArg (· + 1) hsame, hless⟩

theorem mem_map_shift (hdeep : [] ∉ others) :
    place ∈ others.map shift ↔ ∃ i tail, place = (i + 1) :: tail ∧ i :: tail ∈ others := by
  rw [List.mem_map]
  constructor
  · rintro ⟨_ | ⟨i, tail⟩, hmem, rfl⟩
    · exact absurd hmem hdeep
    · exact ⟨i, tail, rfl, hmem⟩
  · rintro ⟨i, tail, rfl, hmem⟩
    exact ⟨i :: tail, hmem, rfl⟩

theorem lists_none : Lists (FileBelow []) [] [] where
  inOrder := .nil
  mem_iff place := by
    cases place <;> simp [FileBelow]
  each := .nil

/-- The files of the first part come before those of the others. -/
theorem Lists.cons (h : Lists (FileAt part) places files) (hrest : Lists (FileBelow rest) others more) :
    Lists (FileBelow (part :: rest)) (places.map (0 :: ·) ++ others.map shift) (files ++ more) := by
  have hdeep : [] ∉ others := by
    rw [hrest.mem_iff]
    rintro ⟨a, ⟨⟩⟩
  refine ⟨List.pairwise_append.mpr ⟨?_, ?_, ?_⟩, fun place => ?_, List.rel_append ?_ ?_⟩
  · exact List.pairwise_map.mpr (h.inOrder.imp fun hless => List.cons_lt_cons_iff.mpr (.inr ⟨rfl, hless⟩))
  · refine List.pairwise_map.mpr (hrest.inOrder.imp_of_mem fun hplace _ hless => shift_lt hless ?_)
    rintro rfl
    exact hdeep hplace
  · simp only [List.mem_map]
    rintro _ ⟨place, -, rfl⟩ _ ⟨other, hother, rfl⟩
    cases other with
    | nil => exact absurd hother hdeep
    | cons i tail => exact List.cons_lt_cons_iff.mpr (.inl (Nat.succ_pos i))
  · rw [List.mem_append, List.mem_map, mem_map_shift hdeep]
    rcases place with _ | ⟨_ | i, tail⟩
    · simp [FileBelow]
    · simpa [fileBelow_zero] using h.mem_iff tail
    · exact Iff.trans (by simp) (hrest.mem_iff (i :: tail))
  · exact List.forall₂_map_left_iff.mpr (h.each.imp fun place a => fileBelow_zero.mpr)
  · exact List.forall₂_map_left_iff.mpr (hrest.each.imp fun place a hfile => fileBelow_shift hfile part)

/-- The files of a body that is not a file itself are those of its parts. -/
theorem fileAt_eq (h : ∀ a, ¬ IsFile body a) : FileAt body = FileBelow body.parts := by
  funext place a
  refine propext ?_
  cases place with
  | nil =>
    constructor
    · rintro ⟨part, ⟨⟩, hfile⟩
      exact h a hfile
    · nofun
  | cons i tail =>
    show (∃ part, body.parts[i]?.bind (at? tail) = some part ∧ IsFile part a) ↔ _
    simp only [Option.bind_eq_some_iff, FileBelow, FileAt]
    constructor
    · rintro ⟨part, ⟨above, habove, hpart⟩, hfile⟩
      exact ⟨above, habove, part, hpart, hfile⟩
    · rintro ⟨above, habove, part, hpart, hfile⟩
      exact ⟨part, ⟨above, habove, hpart⟩, hfile⟩

theorem lists_single (mediaType subtype : String) (parameters : List Parameter) (size : Nat)
    (disposition : Option Disposition) : ∃ places,
      Lists (FileAt (.single mediaType subtype parameters size disposition)) places
        (ofPart mediaType parameters size disposition).toList := by
  rcases hfile : ofPart mediaType parameters size disposition with _ | a
  · have hnone : ∀ a, ¬ IsFile (.single mediaType subtype parameters size disposition) a := by
      intro a h
      rw [isFile_single, hfile] at h
      cases h
    rw [fileAt_eq hnone]
    exact ⟨[], lists_none⟩
  · have hpart : IsFile (.single mediaType subtype parameters size disposition) a := isFile_single.mpr hfile
    refine ⟨[[]], List.pairwise_singleton _ _, fun place => ?_, .cons ⟨_, rfl, hpart⟩ .nil⟩
    rw [List.mem_singleton]
    constructor
    · rintro rfl
      exact ⟨a, _, rfl, hpart⟩
    · rintro ⟨a, part, hplace, -⟩
      cases place with
      | nil => rfl
      | cons i tail => cases hplace

mutual

/-- The files that are collected from a body are all its files. -/
theorem lists_all (body : BodyStructure) : ∃ places, Lists (FileAt body) places (all body) := by
  match body with
  | .single mediaType subtype parameters size disposition =>
    rw [all]
    exact lists_single mediaType subtype parameters size disposition
  | .message size inner disposition =>
    obtain ⟨places, h⟩ := lists_all inner
    have hbody : ∀ a, ¬ IsFile (.message size inner disposition) a := fun a h => by cases h
    rw [fileAt_eq hbody, all, ← List.append_nil (all inner)]
    exact ⟨_, h.cons lists_none⟩
  | .multipart subtype parts disposition =>
    obtain ⟨places, h⟩ := lists_allIn parts
    have hbody : ∀ a, ¬ IsFile (.multipart subtype parts disposition) a := fun a h => by cases h
    rw [fileAt_eq hbody, all]
    exact ⟨places, h⟩

theorem lists_allIn (parts : List BodyStructure) : ∃ places, Lists (FileBelow parts) places (allIn parts) := by
  match parts with
  | [] =>
    rw [allIn]
    exact ⟨[], lists_none⟩
  | part :: rest =>
    obtain ⟨places, h⟩ := lists_all part
    obtain ⟨others, hrest⟩ := lists_allIn rest
    rw [allIn]
    exact ⟨_, h.cons hrest⟩

end

end Attachment

/-! ### In a summary -/

namespace Summary
open Attachment

/-- The last structure that is told says which files there are. -/
theorem attachments_ofItems (u : Uid) (before : List FetchItem) (body : BodyStructure) {after : List FetchItem}
    (h : ∀ b, .bodyStructure b ∉ after) :
    (ofItems u (before ++ .bodyStructure body :: after)).attachments = all body := by
  have hafter : ∀ d : Draft, (after.foldl note d).1.attachments = d.1.attachments := by
    induction after with
    | nil => exact fun d => rfl
    | cons item rest ih =>
      intro d
      rw [List.foldl_cons, ih fun b hmem => h b (List.mem_cons_of_mem item hmem)]
      cases item with
      | bodyStructure b => exact absurd List.mem_cons_self (h b)
      | _ => simp [note, foldl_noteFlag, noteEnvelope_eq]
  show ((before ++ .bodyStructure body :: after).foldl note ({ uid := u }, none)).1.attachments = _
  rw [List.foldl_append, List.foldl_cons, hafter]
  rfl

/-- Adding up comes to an end exactly if the sum can be counted: sizes only grow on the way to it. -/
theorem foldlM_add? (files : List Attachment) {start : Nat} (h : start < UInt64.size) :
    files.foldlM (fun total a => Size.add? total a.size) start =
      let total := start + (files.map Attachment.size).sum
      if total < UInt64.size then some total else none := by
  induction files generalizing start with
  | nil => simp [h]
  | cons a rest ih =>
    rw [List.foldlM_cons, Size.add?, List.map_cons, List.sum_cons, ← Nat.add_assoc]
    by_cases hfits : start + a.size < UInt64.size
    · rw [if_pos hfits]
      exact ih hfits
    · have hover : ¬ start + a.size + (rest.map Attachment.size).sum < UInt64.size := by omega
      rw [if_neg hfits]
      exact (if_neg hover).symm

theorem attachmentSize_eq (s : Summary) : s.attachmentSize =
    let total := (s.attachments.map Attachment.size).sum
    if total < UInt64.size then some total else none := by
  rw [attachmentSize, foldlM_add? _ (by decide), Nat.zero_add]

/-- The files of a message are collected as they are: there is one for each part that is a file, under its name
and with its size, in the order in which the parts are written one in the other. The summary has what their sizes
come to exactly if that can be counted in 64 bits; if not, it has no size, and asking for it breaks off. -/
theorem files_counted (body : BodyStructure) :
    (∃ places : List (List Nat), places.Pairwise (· < ·) ∧
      (∀ place, place ∈ places ↔ ∃ a, FileAt body place a) ∧ List.Forall₂ (FileAt body) places (all body)) ∧
    ∀ (u : Uid) (before after : List FetchItem), (∀ b, .bodyStructure b ∉ after) →
      let s := ofItems u (before ++ .bodyStructure body :: after)
      let total := ((all body).map Attachment.size).sum
      s.attachments = all body ∧ (s.attachmentSize = some total ↔ total < UInt64.size) ∧
        (s.attachmentSize = none ↔ UInt64.size ≤ total) := by
  refine ⟨?_, fun u before after h => ?_⟩
  · obtain ⟨places, hlists⟩ := lists_all body
    exact ⟨places, hlists.inOrder, hlists.mem_iff, hlists.each⟩
  · have hfiles := attachments_ofItems u before body h
    have hsize := attachmentSize_eq (ofItems u (before ++ .bodyStructure body :: after))
    rw [hfiles] at hsize
    refine ⟨hfiles, ?_, ?_⟩
    · rw [hsize]
      simp
    · rw [hsize]
      simp

/-- Two pictures, each of half the numbers that 64 bits can count, and a text. -/
def largeParcel : BodyStructure :=
  let picture (name : String) : BodyStructure :=
    .single "image" "png" [("NAME", name)] (UInt64.size / 2) (some ⟨"Attachment", []⟩)
  .multipart "MIXED" [.single "TEXT" "PLAIN" [] 12 none, picture "a.png", .message 90 (picture "b.png") none] none

/-- They are found, and have no size. -/
theorem files_counted_large :
    let s := ofItems .least [.uid .least, .bodyStructure largeParcel, .flags []]
    s.attachments = [⟨"a.png", UInt64.size / 2⟩, ⟨"b.png", UInt64.size / 2⟩] ∧ s.attachmentSize = none := by
  intro s
  have hfiles : all largeParcel = [⟨"a.png", UInt64.size / 2⟩, ⟨"b.png", UInt64.size / 2⟩] := by decide +kernel
  have hflags : ∀ b, FetchItem.bodyStructure b ∉ [FetchItem.flags []] := by simp
  obtain ⟨hshown, -, hnone⟩ := (files_counted largeParcel).2 .least [.uid .least] [.flags []] hflags
  rw [hfiles] at hshown hnone
  exact ⟨hshown, hnone.mpr (by decide)⟩

end Summary

end Mailroom
