import Mailroom.Proofs.Imap.Phrases

/-! Line breaks in what a server tells.

It takes a string of announced length, or a backslash in front of it, for a line end to stand in a text. A reader
`Passes` some bytes and then stands behind them; as long as these are `Tame`, so that nothing in them keeps a line
end, the texts of the values that are read have none (`valueWithin_passes`). A response about a message is passed
up to the parenthesis that closes it, so whatever keeps a line end stands in front of that (`read_plain`). -/
namespace Mailroom

namespace Cursor

/-- Bytes without line ends. -/
def InLine (bytes : Bytes) : Prop := ∀ b ∈ bytes, inLine b = true

/-- What keeps a line end in a text: an announcement of its length, and a backslash. -/
def keepers : List Bytes :=
  [[Octet.closeBrace, Octet.cr, Octet.lf], [Octet.backslash, Octet.cr], [Octet.backslash, Octet.lf]]

/-- Bytes in which nothing keeps a line end in a text. -/
def Tame (bytes : Bytes) : Prop := ∀ keeper ∈ keepers, ¬ keeper <:+: bytes

section
variable {front back : Bytes}

theorem Tame.left (h : Tame (front ++ back)) : Tame front := fun keeper hkeeper hfront =>
  h keeper hkeeper (hfront.trans (List.prefix_append front back).isInfix)

theorem Tame.right (h : Tame (front ++ back)) : Tame back := fun keeper hkeeper hback =>
  h keeper hkeeper (hback.trans (List.suffix_append front back).isInfix)

/-- No keeper ends with a parenthesis. -/
theorem Tame.close (h : Tame front) : Tame (front ++ [Octet.closeParen]) := by
  intro keeper hkeeper hinfix
  rcases List.infix_concat_iff.mp hinfix with hends | hfront
  · rcases List.suffix_concat_iff.mp hends with rfl | ⟨start, rfl, -⟩
    · exact absurd hkeeper (by decide)
    · have hlast : ∀ keeper ∈ keepers, keeper.getLast? ≠ some Octet.closeParen := by decide
      exact hlast _ hkeeper List.getLast?_concat
  · exact h keeper hkeeper hfront

theorem Tame.escaped {b : UInt8} (h : Tame [Octet.backslash, b]) : inLine b = true := by
  have hkept : ∀ b', [Octet.backslash, b'] ∈ keepers → b ≠ b' := by
    rintro _ hkeeper rfl
    exact h _ hkeeper (List.infix_refl _)
  rw [inLine, Bool.and_eq_true, bne_iff_ne, bne_iff_ne]
  exact ⟨hkept Octet.cr (by decide), hkept Octet.lf (by decide)⟩

end

end Cursor

namespace Utf8

/-- They spell a text without line ends. -/
theorem unbroken_lossy {bytes : Bytes} (h : Cursor.InLine bytes) : Cursor.Unbroken (lossy bytes) := by
  have hnone : ∀ b : UInt8, b = Octet.cr ∨ b = Octet.lf → Octet.char b ∉ (lossy bytes).toList := by
    intro b hb hmem
    have hlow : (Octet.char b).toNat < 128 := by
      rcases hb with rfl | rfl <;> decide
    have hread : Octet.char b ∈ (lossy bytes).toList.filter (·.toNat < 128) :=
      List.mem_filter.mpr ⟨hmem, decide_eq_true hlow⟩
    rw [filter_lossy] at hread
    obtain ⟨b', hb', hsame⟩ := List.mem_map.mp hread
    have hbyte : b' = b := by
      rw [← UInt8.toNat_inj, ← Octet.toNat_char, hsame, Octet.toNat_char]
    have hline := h b (hbyte ▸ (List.mem_filter.mp hb').1)
    rcases hb with rfl | rfl <;> cases hline
  exact ⟨hnone Octet.cr (.inl rfl), hnone Octet.lf (.inr rfl)⟩

end Utf8

/-- A value whose texts are without line ends. -/
inductive Value.Plain : Value → Prop
  | atom {word : String} (h : Cursor.Unbroken word) : Plain (.atom word)
  | number (n : Nat) : Plain (.number n)
  | quoted {bytes : Bytes} (h : Cursor.InLine bytes) : Plain (.quoted bytes)
  | literal {bytes : Bytes} (h : Cursor.InLine bytes) : Plain (.literal bytes)
  | absent : Plain .absent
  | list {items : List Value} (h : ∀ v ∈ items, Plain v) : Plain (.list items)
  | bracketed {items : List Value} (h : ∀ v ∈ items, Plain v) : Plain (.bracketed items)

theorem Value.Plain.unbroken {v : Value} {text : String} (h : v.Plain) (htext : v.text? = some text) :
    Cursor.Unbroken text := by
  cases h with
  | atom h =>
    cases htext
    exact h
  | quoted h | literal h =>
    cases htext
    exact Utf8.unbroken_lossy h
  | _ => cases htext

theorem Value.Plain.items {v : Value} {items : List Value} (h : v.Plain) (hitems : v.items? = some items) :
    ∀ w ∈ items, w.Plain := by
  cases h with
  | list h =>
    cases hitems
    exact h
  | _ => cases hitems

namespace Cursor

section
variable {α β : Type} {P P' : Bytes → α → Prop} {Q : Bytes → β → Prop} {r s : Reader α} {next : α → Reader β}

/-- Whatever the reader returns, it has passed bytes of which this holds with it. -/
def Passes (P : Bytes → α → Prop) (r : Reader α) : Prop :=
  ∀ c a d, r c = .ok (a, d) → ∃ passed, c.rest = passed ++ d.rest ∧ P passed a

theorem Passes.mono (h : Passes P r) (hmono : ∀ passed a, P passed a → P' passed a) : Passes P' r := by
  intro c a d hrun
  obtain ⟨passed, hpassed, ha⟩ := h c a d hrun
  exact ⟨passed, hpassed, hmono passed a ha⟩

theorem Passes.pure {a : α} (h : P [] a) : Passes P (Pure.pure a : Reader α) := by
  intro c a' d hrun
  cases hrun
  exact ⟨[], rfl, h⟩

theorem Passes.bind (h : Passes P r)
    (hnext : ∀ before a, P before a → Passes (fun passed => Q (before ++ passed)) (next a)) :
    Passes Q (r >>= next) := by
  intro c b e hrun
  rw [bind_apply] at hrun
  rcases hr : r c with fault | ⟨a, d⟩
  · rw [hr] at hrun
    cases hrun
  · rw [hr] at hrun
    obtain ⟨before, hbefore, ha⟩ := h c a d hr
    obtain ⟨passed, hpassed, hb⟩ := hnext before a ha d b e hrun
    exact ⟨before ++ passed, by rw [hbefore, hpassed, List.append_assoc], hb⟩

theorem Passes.ite {p : Prop} [Decidable p] (h : p → Passes P r) (h' : ¬ p → Passes P s) :
    Passes P (if p then r else s) := by
  by_cases hp : p
  · rw [if_pos hp]
    exact h hp
  · rw [if_neg hp]
    exact h' hp

theorem passes_fail (reason : Reason) : Passes P (fail reason : Reader α) := nofun

theorem passes_get : Passes (fun passed _ => passed = []) (get : Reader Cursor) := by
  intro c a d hrun
  cases hrun
  exact ⟨[], rfl, rfl⟩

end

/-! ### The smallest readers -/

theorem passes_eat (byte : UInt8) : Passes (fun passed seen => seen = true → passed = [byte]) (eat byte) := by
  intro ⟨position, rest⟩ seen d hrun
  cases hnext : isNext byte ⟨position, rest⟩ with
  | true =>
    obtain ⟨more, rfl⟩ : ∃ more, rest = byte :: more := List.head?_eq_some_iff.mp (beq_iff_eq.mp hnext)
    rw [eat_next] at hrun
    cases hrun
    exact ⟨[byte], rfl, fun _ => rfl⟩
  | false =>
    rw [eat_other hnext] at hrun
    cases hrun
    exact ⟨[], rfl, nofun⟩

theorem passes_expect (byte : UInt8) : Passes (fun passed _ => passed = [byte]) (expect byte) := by
  intro ⟨position, rest⟩ u d hrun
  cases hnext : isNext byte ⟨position, rest⟩ with
  | true =>
    obtain ⟨more, rfl⟩ : ∃ more, rest = byte :: more := List.head?_eq_some_iff.mp (beq_iff_eq.mp hnext)
    rw [expect_next] at hrun
    cases hrun
    exact ⟨[byte], rfl, rfl⟩
  | false =>
    rw [expect_other hnext] at hrun
    cases hrun

theorem passes_takeWhile (p : UInt8 → Bool) :
    Passes (fun passed taken => taken = passed ∧ ∀ b ∈ taken, p b = true) (takeWhile p) := by
  intro c taken d hrun
  rw [takeWhile_run] at hrun
  cases hrun
  exact ⟨_, List.takeWhile_append_dropWhile.symm, rfl, fun b hb => List.mem_takeWhile_imp hb⟩

theorem passes_take (n : Nat) : Passes (fun passed taken => taken = passed) (take n) := by
  intro c taken d hrun
  unfold take at hrun
  split at hrun
  · dsimp only at hrun
    split at hrun
    · cases hrun
    · cases hrun
      exact ⟨_, (List.take_append_drop n c.rest).symm, rfl⟩
  · cases hrun

theorem passes_skip (n : Nat) : Passes (fun _ _ => True) (modify (·.skip n) : Reader PUnit) := by
  intro c u d hrun
  cases hrun
  exact ⟨_, (List.take_append_drop n c.rest).symm, trivial⟩

/-! ### Values -/

/-- The texts of the value that is read have no line ends unless something that is passed keeps one. -/
abbrev PassesPlain (r : Reader Value) : Prop := Passes (fun passed v => Tame passed → v.Plain) r

theorem quotedFrom_passes {position : Nat} {taken bytes rest : Bytes} {d : Cursor}
    (h : quotedFrom position taken rest = .ok (bytes, d)) :
    ∃ passed, rest = passed ++ d.rest ∧ (Tame passed → InLine taken → InLine bytes) := by
  fun_induction quotedFrom position taken rest with
  | case1 => cases h
  | case2 position taken rest =>
    cases h
    exact ⟨[Octet.quote], rfl, fun _ htaken b hb => htaken b (List.mem_reverse.mp hb)⟩
  | case3 => cases h
  | case4 position taken escaped rest hquote ih =>
    obtain ⟨passed, rfl, htaken⟩ := ih h
    refine ⟨Octet.backslash :: escaped :: passed, rfl, fun hpassed hbefore => ?_⟩
    have hpair : Tame ([Octet.backslash, escaped] ++ passed) := hpassed
    exact htaken hpair.right (List.forall_mem_cons.mpr ⟨hpair.left.escaped, hbefore⟩)
  | case5 position taken b rest hquote hback hline ih =>
    obtain ⟨passed, rfl, htaken⟩ := ih h
    refine ⟨[b] ++ passed, rfl, fun hpassed hbefore => ?_⟩
    exact htaken hpassed.right (List.forall_mem_cons.mpr ⟨hline, hbefore⟩)
  | case6 => cases h

theorem quoted_passes : PassesPlain quoted := by
  refine (passes_expect Octet.quote).bind fun before _ _ => ?_
  refine Passes.bind (P := fun passed bytes => Tame passed → InLine bytes) (fun c bytes d hrun => ?_)
    fun passed bytes hbytes => .pure fun hpassed => ?_
  · obtain ⟨passed, hpassed, hbytes⟩ := quotedFrom_passes hrun
    exact ⟨passed, hpassed, fun hline => hbytes hline (List.forall_mem_nil _)⟩
  · rw [List.append_nil] at hpassed
    exact .quoted (hbytes hpassed.right)

/-- A string of announced length is passed with its announcement. -/
theorem literal_passes : Passes (fun passed _ => ¬ Tame passed) literal := by
  refine (passes_expect Octet.openBrace).bind fun _ _ _ => (passes_takeWhile _).bind fun _ digits _ => ?_
  split
  · exact passes_fail _
  · next length _ =>
    refine (passes_eat Octet.plus).bind fun _ _ _ => (passes_expect Octet.closeBrace).bind fun close _ hclose => ?_
    refine (passes_expect Octet.cr).bind fun cr _ hcr => (passes_expect Octet.lf).bind fun lf _ hlf => ?_
    refine (passes_take length).bind fun counted _ _ => .pure fun htame => ?_
    subst hclose hcr hlf
    have hafter : Tame ([Octet.closeBrace, Octet.cr, Octet.lf] ++ (counted ++ [])) := htame.right.right.right
    exact hafter.left _ List.mem_cons_self (List.infix_refl _)

theorem atom_passes : PassesPlain atom := by
  refine (passes_takeWhile isAtomByte).bind fun before bytes hbytes => .ite (fun _ => passes_fail _) fun _ => ?_
  refine .pure fun _ => ?_
  have hline : InLine bytes := fun b hb => (inLine_atomByte (hbytes.2 b hb)).1
  unfold ofWord
  dsimp only
  split
  · exact .absent
  · split
    · exact .number _
    · exact .atom (Utf8.unbroken_lossy hline)

/-- Values are passed up to the bracket that closes them. -/
theorem valuesFrom_passes {one : Reader Value} (hone : PassesPlain one) (close : UInt8) (limit : Nat)
    (taken : List Value) : Passes (fun passed values => (∃ front, passed = front ++ [close]) ∧
      (Tame passed → (∀ v ∈ taken, v.Plain) → ∀ v ∈ values, v.Plain)) (valuesFrom one close limit taken) := by
  induction limit generalizing taken with
  | zero => exact passes_fail _
  | succ limit ih =>
    refine (passes_takeWhile _).bind fun spaces _ _ => (passes_eat close).bind fun before closed hclosed =>
      .ite (fun hclose => ?_) fun _ => ?_
    · refine .pure ⟨⟨spaces, ?_⟩, fun _ htaken v hv => htaken v (List.mem_reverse.mp hv)⟩
      rw [hclosed hclose, List.append_nil]
    · refine passes_get.bind fun none c _ => .ite (fun _ => passes_fail _) fun _ => ?_
      refine hone.bind fun written v hv => ?_
      refine (ih (v :: taken)).mono fun passed values ⟨⟨front, hfront⟩, hvalues⟩ => ?_
      refine ⟨⟨spaces ++ (before ++ (none ++ (written ++ front))), by simp [hfront]⟩, fun htame htaken => ?_⟩
      have hafter : Tame (written ++ passed) := htame.right.right.right
      exact hvalues hafter.right (List.forall_mem_cons.mpr ⟨hv hafter.left, htaken⟩)

theorem valuesUntil_passes {one : Reader Value} (hone : PassesPlain one) (close : UInt8) :
    Passes (fun passed values => (∃ front, passed = front ++ [close]) ∧ (Tame passed → ∀ v ∈ values, v.Plain))
      (valuesUntil one close) := by
  intro c values d hrun
  obtain ⟨passed, hpassed, hclose, hvalues⟩ := valuesFrom_passes hone close _ [] c values d hrun
  exact ⟨passed, hpassed, hclose, fun hline => hvalues hline (List.forall_mem_nil _)⟩

theorem bracket_passes {one : Option (Reader Value)} {make : List Value → Value}
    (hone : ∀ r, one = some r → PassesPlain r) (hmake : ∀ values, (∀ v ∈ values, v.Plain) → (make values).Plain)
    (close : UInt8) : PassesPlain (bracket one close make) := by
  refine (passes_skip 1).bind fun opening _ _ => ?_
  cases one with
  | none => exact passes_fail _
  | some r =>
    show Passes _ (make <$> valuesUntil r close)
    rw [map_eq_pure_bind]
    refine (valuesUntil_passes (hone r rfl) close).bind fun inside values hvalues => .pure fun htame => ?_
    exact hmake values (hvalues.2 htame.right.left)

theorem valueBy_passes {one : Option (Reader Value)} (hone : ∀ r, one = some r → PassesPlain r) :
    PassesPlain (valueBy literal one) := by
  refine passes_get.bind fun none c hnone => ?_
  subst hnone
  split
  · exact passes_fail _
  · refine .ite (fun _ => bracket_passes hone (fun _ => .list) _) fun _ =>
      .ite (fun _ => bracket_passes hone (fun _ => .bracketed) _) fun _ => ?_
    refine .ite (fun _ => quoted_passes) fun _ => .ite (fun _ => ?_) fun _ =>
      .ite (fun _ => atom_passes) fun _ => passes_fail _
    exact literal_passes.mono fun passed v hwild htame => absurd htame hwild

/-- The texts of a value that is read from tame bytes are without line ends. -/
theorem valueWithin_passes (depth : Nat) : PassesPlain (valueWithin literal depth) := by
  induction depth with
  | zero => exact valueBy_passes nofun
  | succ depth ih =>
    refine valueBy_passes fun r hr => ?_
    cases hr
    exact ih

end Cursor

/-! ### Items -/

open Cursor

/-- No text in the address has a line end. -/
structure Address.Plain (a : Address) : Prop where
  name : ∀ text, a.name = some text → Unbroken text
  mailbox : ∀ text, a.mailbox = some text → Unbroken text
  host : ∀ text, a.host = some text → Unbroken text

/-- Neither the subject nor an author has a line end. -/
structure Envelope.Plain (e : Envelope) : Prop where
  subject : ∀ text, e.subject = some text → Unbroken text
  authors : ∀ a ∈ e.from, a.Plain

section
variable {values fields : List Value}

theorem unbroken_field (h : ∀ v ∈ fields, v.Plain) {i : Nat} {text : String}
    (htext : fields[i]?.bind Value.text? = some text) : Unbroken text := by
  obtain ⟨v, hv, htext⟩ := Option.bind_eq_some_iff.mp htext
  exact (h v (List.mem_of_getElem? hv)).unbroken htext

theorem Address.ofValue_plain {v : Option Value} (h : ∀ w, v = some w → w.Plain) :
    ∀ a ∈ ofValue v, a.Plain := by
  intro a ha
  obtain ⟨fields, hfields, rfl⟩ := List.mem_map.mp (List.mem_filter.mp ha).1
  obtain ⟨w, hw, hitems⟩ := List.mem_filterMap.mp hfields
  have hplain : w.Plain := by
    rcases v with _ | v
    · cases hw
    · rcases hmembers : v.items? with _ | members
      · simp [hmembers] at hw
      · exact (h v rfl).items hmembers w (by simpa [hmembers] using hw)
  have hall := hplain.items hitems
  exact ⟨fun _ => unbroken_field hall, fun _ => unbroken_field hall, fun _ => unbroken_field hall⟩

theorem Envelope.ofValues_plain (h : ∀ v ∈ values, v.Plain) : (ofValues values).Plain where
  subject _ := unbroken_field h
  authors := Address.ofValue_plain fun w hw => h w (List.mem_of_getElem? hw)

/-- Header fields in the items have no line ends. -/
def FetchItem.Plain (items : List FetchItem) : Prop := ∀ e, .envelope e ∈ items → e.Plain

theorem FetchItem.ofPair_plain {name : String} {v : Value} {item : Option FetchItem} (h : v.Plain)
    (hread : ofPair name v = .ok item) : Plain item.toList := by
  intro e he
  obtain rfl : item = some (.envelope e) := Option.mem_toList.mp he
  revert hread
  unfold ofPair
  split
  · rcases v.number?.bind Uid.ofNat? with _ | u <;> nofun
  · nofun
  · rcases v.number? with _ | n <;> nofun
  · rcases v.text? with _ | text <;> nofun
  · rcases hitems : v.items? with _ | fields
    · nofun
    · intro hread
      cases hread
      exact Envelope.ofValues_plain (h.items hitems)
  iterate 2
    rcases v.items? with _ | fields
    · nofun
    · dsimp only
      rcases BodyStructure.ofValues fields with _ | body <;> nofun
  · nofun

theorem FetchItem.readAll_plain {items : List FetchItem} (h : ∀ v ∈ values, v.Plain)
    (hread : readAll values = .ok items) : Plain items := by
  fun_induction readAll values generalizing items with
  | case1 | case4 | case5 =>
    cases hread
    exact fun e he => absurd he List.not_mem_nil
  | case2 => cases hread
  | case3 => cases hread
  | case6 name text hname section_ place payload rest horigin ih =>
    exact ih (fun v hv => h v (by simp [hv])) hread
  | case7 name text hname section_ payload next rest horigin ih =>
    exact ih (fun v hv => h v (by simp only [List.mem_cons] at hv ⊢; tauto)) hread
  | case8 =>
    rename_i name text hname word v rest _ _ _ ih
    rcases hpair : ofPair word v with _ | item
    · rw [hpair] at hread
      cases hread
    · rcases hrest : readAll rest with _ | more
      · rw [hpair, hrest] at hread
        cases hread
      · rw [hpair, hrest] at hread
        cases hread
        intro e he
        rcases List.mem_append.mp he with he | he
        · exact ofPair_plain (h v (by simp)) hpair e he
        · exact ih (fun v hv => h v (by simp [hv])) hrest e he

end

/-! ### Responses -/

namespace Response
open Cursor

theorem spacedList_passes : Passes (fun passed values => (∃ front, passed = front ++ [Octet.closeParen]) ∧
    (Tame passed → ∀ v ∈ values, v.Plain)) (spacedList literal) := by
  refine (passes_expect _).bind fun space _ _ => (passes_expect _).bind fun opening _ _ => ?_
  refine (valuesUntil_passes (valueWithin_passes maxDepth) _).mono fun passed values h => ?_
  obtain ⟨⟨front, hfront⟩, hvalues⟩ := h
  exact ⟨⟨space ++ (opening ++ front), by simp [hfront]⟩, fun htame => hvalues htame.right.right⟩

/-- The items about a message, if that is what is told. -/
def items? : Untagged → Option (List FetchItem)
  | .fetch _ items => some items
  | _ => none

section
variable {α β : Type} {told : α → Option (List FetchItem)} {more : β → Option (List FetchItem)}
  {P : Bytes → α → Prop} {r : Reader α} {s : Reader β} {next : α → Reader β}

/-- Where the reader returns items about a message, it has passed them up to the parenthesis that closes them,
and no line ends are in them unless it has passed what keeps one. -/
def PassesItems (told : α → Option (List FetchItem)) (r : Reader α) : Prop :=
  ∀ c a d, r c = .ok (a, d) → ∀ items, told a = some items →
    ∃ front, c.rest = front ++ Octet.closeParen :: d.rest ∧ (Tame front → FetchItem.Plain items)

theorem PassesItems.never (h : Yields (fun a => told a = none) r) : PassesItems told r := by
  intro c a d hrun items hitems
  rw [h c a d hrun] at hitems
  cases hitems

theorem PassesItems.after (h : Passes P r) (hnext : ∀ a, PassesItems more (next a)) :
    PassesItems more (r >>= next) := by
  intro c b e hrun items hitems
  rw [bind_apply] at hrun
  rcases hr : r c with fault | ⟨a, d⟩
  · rw [hr] at hrun
    cases hrun
  · rw [hr] at hrun
    obtain ⟨before, hbefore, -⟩ := h c a d hr
    obtain ⟨front, hfront, hplain⟩ := hnext a d b e hrun items hitems
    exact ⟨before ++ front, by rw [hbefore, hfront, List.append_assoc], fun htame => hplain htame.right⟩

theorem PassesItems.ite {p : Prop} [Decidable p] {s : Reader α} (h : PassesItems told r)
    (h' : PassesItems told s) : PassesItems told (if p then r else s) := by
  split
  · exact h
  · exact h'

theorem PassesItems.map {f : α → β} (h : PassesItems told r) (hsame : ∀ a, more (f a) = told a) :
    PassesItems more (r >>= fun a => pure (f a)) := by
  intro c b e hrun items hitems
  rw [bind_apply] at hrun
  rcases hr : r c with fault | ⟨a, d⟩
  · rw [hr] at hrun
    cases hrun
  · rw [hr] at hrun
    cases hrun
    exact h c a _ hr items ((hsame a).symm.trans hitems)

end

theorem word_passes : Passes (fun _ _ => True) word := by
  refine (passes_takeWhile _).bind fun _ bytes _ => .ite (fun _ => passes_fail _) fun _ => ?_
  split
  · exact .pure trivial
  · exact passes_fail _

theorem fetch_passes (n : Nat) : PassesItems items? (do
    let items ← spacedList literal
    pure (.fetch n (← understood (FetchItem.readAll items)))) := by
  intro c data e hrun items hitems
  rw [bind_apply] at hrun
  rcases hlist : spacedList literal c with fault | ⟨values, d⟩
  · rw [hlist] at hrun
    cases hrun
  · rw [hlist] at hrun
    dsimp only at hrun
    rcases hread : FetchItem.readAll values with fault | all
    · rw [hread] at hrun
      cases hrun
    · rw [hread] at hrun
      cases hrun
      cases hitems
      obtain ⟨passed, hpassed, ⟨front, rfl⟩, hvalues⟩ := spacedList_passes c values _ hlist
      refine ⟨front, by rw [hpassed, List.append_assoc]; rfl, fun htame => ?_⟩
      exact FetchItem.readAll_plain (hvalues htame.close) hread

theorem numbered_passes (n : Nat) : PassesItems items? (numbered literal n) := by
  refine .after (passes_expect _) fun _ => .after word_passes fun keyword => ?_
  dsimp only
  split
  · exact .never (.pure rfl)
  · exact .never (.pure rfl)
  · exact .never (.pure rfl)
  · exact fetch_passes n
  · exact .never (.pure rfl)

theorem keyed_never (keyword : String) : PassesItems items? (keyed literal keyword) := by
  refine .never ?_
  unfold keyed
  split
  · exact (Yields.any _).bind fun _ _ => .pure rfl
  · exact (Yields.any _).bind fun _ _ => .pure rfl
  · exact (Yields.any _).bind fun _ _ => .pure rfl
  · exact (Yields.any _).bind fun _ _ => (Yields.any _).bind fun _ _ => .pure rfl
  · exact (Yields.any _).bind fun _ _ => .pure rfl
  · exact .pure rfl

theorem untaggedData_passes : PassesItems items? (untaggedData literal) := by
  refine .after word_passes fun first => ?_
  split
  · exact numbered_passes _
  · split
    · exact .never ((Yields.any _).bind fun _ _ => .pure rfl)
    · exact keyed_never _

theorem response_passes : PassesItems (fun | .untagged data => items? data | _ => none) (response literal) := by
  refine .after (passes_eat _) fun _ => .ite ?_ ?_
  · exact .never ((Yields.any _).bind fun _ _ => (Yields.any _).bind fun _ _ => .pure rfl)
  · refine .after word_passes fun tag => .after (passes_expect _) fun _ => .ite ?_ (.never ?_)
    · exact untaggedData_passes.map fun data => rfl
    · refine (Yields.any _).bind fun word _ => ?_
      split
      · exact nofun
      · exact (Yields.any _).bind fun _ _ => .pure rfl

/-- No line ends are in the items about a message unless something in front of the parenthesis that closes them
keeps one. -/
theorem read_plain {line : Bytes} {n : Nat} {items : List FetchItem}
    (h : read line = .ok (.untagged (.fetch n items))) :
    ∃ front rest, line = front ++ Octet.closeParen :: rest ∧ (Tame front → FetchItem.Plain items) := by
  unfold read at h
  rcases hrun : response literal (Cursor.ofBytes line) with fault | ⟨response, d⟩ <;> rw [hrun] at h <;> cases h
  obtain ⟨front, hfront, hplain⟩ := response_passes _ _ _ hrun items rfl
  exact ⟨front, _, hfront, hplain⟩

end Response

end Mailroom
