import Mailroom.Mailstore.Message
import Mailroom.Search.Resolve

/-! What stored messages tell about themselves.

A search looks at the envelope and at the structure that a store makes up for a message. The
sender in the envelope is the sender of the message (`email?_addressOf`), and the files that
the structure shows are those of the message that have a name (`all_bodyStructure`). -/
namespace Mailroom

namespace Split

theorem afterLast?_append {c : Char} (before : List Char) {rest : List Char} (h : c ∉ rest) :
    afterLast? c (before ++ c :: rest) = some rest := by
  have hc : (before ++ c :: rest).contains c = true := by simp
  have hall : ∀ x ∈ rest.reverse, (x != c) = true := by
    intro x hx
    rw [bne_iff_ne]
    rintro rfl
    exact h (List.mem_reverse.mp hx)
  have htake : (before ++ c :: rest).reverse.takeWhile (· != c) = rest.reverse := by
    rw [List.reverse_append, List.reverse_cons, List.append_assoc, List.takeWhile_append_of_pos hall]
    simp
  rw [afterLast?, if_pos hc, htake, List.reverse_reverse]

theorem afterLast?_eq_none {c : Char} {cs : List Char} (h : c ∉ cs) : afterLast? c cs = none := by
  rw [afterLast?, if_neg (by simpa using h)]

/-- A character that occurs has a last occurrence. -/
theorem exists_last {c : Char} {cs : List Char} (h : c ∈ cs) :
    ∃ before rest, cs = before ++ c :: rest ∧ c ∉ rest := by
  induction cs with
  | nil => cases h
  | cons d cs ih =>
    by_cases hc : c ∈ cs
    · obtain ⟨before, rest, rfl, hr⟩ := ih hc
      exact ⟨d :: before, rest, rfl, hr⟩
    · rcases List.mem_cons.mp h with rfl | h
      · exact ⟨[], cs, rfl, hc⟩
      · exact absurd h hc

theorem afterLast?_eq_some_iff {c : Char} {cs rest : List Char} :
    afterLast? c cs = some rest ↔ ∃ before, cs = before ++ c :: rest ∧ c ∉ rest := by
  constructor
  · intro h
    by_cases hc : c ∈ cs
    · obtain ⟨before, rest', rfl, hr⟩ := exists_last hc
      rw [afterLast?_append before hr] at h
      cases h
      exact ⟨before, rfl, hr⟩
    · rw [afterLast?_eq_none hc] at h
      cases h
  · rintro ⟨before, rfl, hr⟩
    exact afterLast?_append before hr

end Split

/-- Whether an address looks like that of a bulk sender is a matter of what follows its last
`@`. -/
theorem Bulk.isBulkSender_iff {address : String} :
    isBulkSender address = true ↔
      ∃ before domain, address.toList = before ++ '@' :: domain ∧ '@' ∉ domain ∧
        32 < domain.length := by
  unfold isBulkSender
  constructor
  · intro h
    split at h
    · next domain hd =>
      obtain ⟨before, hcs, hr⟩ := Split.afterLast?_eq_some_iff.mp hd
      exact ⟨before, domain, hcs, hr, of_decide_eq_true h⟩
    · cases h
  · rintro ⟨before, domain, hcs, hr, hl⟩
    rw [hcs, Split.afterLast?_append before hr]
    exact decide_eq_true hl

namespace Mailstore.Message

/-! ### The sender -/

/-- Cutting an address at its last `@` loses nothing. -/
theorem email?_addressOf (email : String) : (addressOf email).email? = some email := by
  by_cases h : '@' ∈ email.toList
  · obtain ⟨before, rest, hcs, hr⟩ := Split.exists_last h
    have hlength : (before ++ '@' :: rest).length - rest.length - 1 = before.length := by
      simp only [List.length_append, List.length_cons]
      omega
    have hemail : email = String.ofList before ++ "@" ++ String.ofList rest := by
      rw [← String.ofList_toList (s := email), hcs]
      simp [String.ofList_append, String.ofList_cons, String.append_assoc]
    simp only [addressOf, hcs, Split.afterLast?_append before hr, Address.email?, hlength,
      List.take_left]
    rw [← hemail]
  · simp only [addressOf, Split.afterLast?_eq_none h, Address.email?]

/-- The envelope names the sender of the message. -/
theorem isFromBulk_items (m : Message) (u : Uid) :
    SearchSpec.isFromBulk (m.items u [.envelope]) = Bulk.isBulkSender m.sender := by
  have hsender : ({ addressOf m.sender with name := m.senderName } : Address).email? = some m.sender := by
    rw [← email?_addressOf m.sender]
    rfl
  simp [SearchSpec.isFromBulk, items, item, envelope, hsender]

/-! ### The attached files -/

theorem isFileType_mediaType (filename : String) :
    Attachment.isFileType (mediaType filename).1 = true := by
  unfold mediaType
  split <;> rfl

theorem all_filePart (a : Attachment) :
    Attachment.all (filePart a) = if a.filename = "" then [] else [a] := by
  have hname : Attachment.nameOf ⟨"attachment", [("FILENAME", a.filename)]⟩ [("NAME", a.filename)] =
      if a.filename = "" then none else some a.filename := by
    have hsame : Ascii.same "FILENAME" "filename" = true := by decide
    have hfind : Parameter.find? "filename" [("FILENAME", a.filename)] = some a.filename := by
      simp [Parameter.find?, hsame]
    rw [Attachment.nameOf, hfind]
    by_cases h : a.filename = "" <;> simp [h]
  have hattached : Disposition.isAttachment ⟨"attachment", [("FILENAME", a.filename)]⟩ = true := by
    show Ascii.same "attachment" "attachment" = true
    decide
  simp only [filePart, Attachment.all, Attachment.ofPart, isFileType_mediaType, hattached, hname]
  by_cases h : a.filename = "" <;> simp [h]

theorem allIn_fileParts (files : List Attachment) :
    Attachment.allIn (files.map filePart) = files.filter fun a => a.filename ≠ "" := by
  induction files with
  | nil => rfl
  | cons a rest ih =>
    rw [List.map_cons, Attachment.allIn, all_filePart, ih, List.filter_cons]
    by_cases h : a.filename = "" <;> simp [h]

/-- The structure shows the files of the message that have a name. -/
theorem all_bodyStructure (m : Message) :
    Attachment.all m.bodyStructure = m.attachments.filter fun a => a.filename ≠ "" := by
  unfold bodyStructure
  rcases m.attachments with _ | ⟨a, rest⟩
  · rfl
  · have htext : Attachment.all textPart = [] := rfl
    simp only [List.isEmpty_cons, Bool.false_eq_true, if_false, Attachment.all, Attachment.allIn, htext,
      List.nil_append, allIn_fileParts]

theorem attachmentCount_items (m : Message) (u : Uid) :
    SearchSpec.attachmentCount (m.items u [.bodyStructure]) =
      (m.attachments.filter fun a => a.filename ≠ "").length := by
  rw [← all_bodyStructure]
  rfl

end Mailstore.Message

end Mailroom
