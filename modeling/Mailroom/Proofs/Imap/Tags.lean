import Mailroom.Proofs.Imap.Aftermath
import Mailroom.Proofs.Imap.Spelling
import Mailroom.Proofs.Text.Numerals

/-! Tags that tell commands apart.

A tag is a letter and a number, and the numbers come around only after all those of 32 bits. Within one
round the tags differ (`tag_inj`), and since digits come to an end before a space, no line begins with two
of them (`eq_of_isFor`). Commands take their tags one after the other, whatever comes of each
(`executeAll_tags`). So of all commands of a round a line completes one at most, and to the others it is
nothing, which is what `upcoming_apart` says. -/
namespace Mailroom

theorem Decimal.padded_inj {width m n : Nat} (h : padded width m = padded width n) : m = n := by
  have hvalue := digits?_padded width m
  rw [h, digits?_padded] at hvalue
  exact (Option.some.inj hvalue).symm

/-! ### The tags of commands -/

namespace Connection

theorem tags_notice (c : Connection) (code : Option Code) : (c.notice code).tags = c.tags := by
  unfold notice
  split <;> rfl

theorem tags_observe (c : Connection) (data : Untagged) : (c.observe data).tags = c.tags := by
  unfold observe
  split
  · rfl
  · rfl
  · exact tags_notice c _
  · rfl

/-- An exchange takes no tag beyond that of its command. -/
theorem converse_tags (command : Command) (tag : String) (x : Exchange) (c : Connection) (frames : List Bytes) :
    (converse command tag x c frames).2.tags = c.tags := by
  induction frames generalizing x c with
  | nil => rfl
  | cons frame frames ih =>
    unfold converse
    split
    · exact ih x c
    · exact ih _ c
    · rfl
    · rw [ih, tags_observe]
    · dsimp only
      split
      · exact tags_notice c _
      · rfl
    · split
      · exact ih _ _
      · rfl

theorem execute_tags (c : Connection) (command : Command) :
    (c.execute command).2.tags = c.tags.advance := by
  unfold execute
  dsimp only
  split
  · exact converse_tags ..
  · exact converse_tags ..

/-- Each command takes the next tag. -/
theorem executeAll_tags (c : Connection) (commands : List Command) :
    (c.executeAll commands).tags = ⟨c.tags.letter, c.tags.next + UInt32.ofNat commands.length⟩ := by
  induction commands generalizing c with
  | nil => simp [executeAll]
  | cons command rest ih =>
    have hrest : (c.executeAll (command :: rest)).tags = ((c.execute command).2.executeAll rest).tags := rfl
    rw [hrest, ih, execute_tags, TagSource.advance, List.length_cons, UInt32.ofNat_add]
    simp only [TagSource.mk.injEq, true_and]
    rw [UInt32.add_assoc, UInt32.add_comm 1]
    rfl

end Connection

namespace TagSource
open Connection
variable {letter : Char} {m n : UInt32} {frame : Bytes}

/-! ### Tags of one round -/

theorem tag_inj (h : tag letter m = tag letter n) : m = n := by
  have hdigits := (List.cons.inj (String.ofList_inj.mp h)).2
  exact UInt32.toNat_inj.mp (Decimal.padded_inj hdigits)

theorem upcoming_eq (s : TagSource) (count : Nat) :
    s.upcoming count = (List.range count).map fun i => tag s.letter (s.next + UInt32.ofNat i) := by
  induction count generalizing s with
  | zero => rfl
  | succ count ih =>
    rw [upcoming, ih, List.range_succ_eq_map, List.map_cons, List.map_map]
    refine congrArg₂ List.cons (by simp [current]) (List.map_congr_left fun i _ => ?_)
    simp only [advance, Function.comp_apply, Nat.succ_eq_add_one, UInt32.ofNat_add]
    rw [UInt32.add_assoc, UInt32.add_comm 1]
    rfl

theorem length_upcoming (s : TagSource) (count : Nat) : (s.upcoming count).length = count := by
  rw [upcoming_eq, List.length_map, List.length_range]

/-- The numbers of a round differ. -/
theorem offset_inj {i j : Nat} (hi : i < UInt32.size) (hj : j < UInt32.size)
    (h : n + UInt32.ofNat i = n + UInt32.ofNat j) : i = j := by
  have hsame := congrArg UInt32.toNat ((UInt32.add_right_inj n).mp h)
  rwa [UInt32.toNat_ofNat_of_lt' hi, UInt32.toNat_ofNat_of_lt' hj] at hsame

theorem nodup_upcoming (s : TagSource) : (s.upcoming UInt32.size).Nodup := by
  rw [upcoming_eq, List.Nodup, List.pairwise_map]
  refine List.nodup_range.imp_of_mem fun hi hj hne h => hne ?_
  exact offset_inj (List.mem_range.mp hi) (List.mem_range.mp hj) (tag_inj h)

/-! ### Lines that begin with a tag -/

/-- Such a line begins with the letter, and the digits that follow are those of the number. -/
theorem digits_of_isFor (h : isFor (tag letter n) frame = true) :
    ∃ rest, frame = String.utf8EncodeChar letter ++ rest ∧
      rest.takeWhile Octet.isDigit = Utf8.encode (String.ofList (Decimal.padded 4 n.toNat)) := by
  obtain ⟨rest, hrest⟩ := List.isPrefixOf_iff_prefix.mp h
  let digits := Utf8.encode (String.ofList (Decimal.padded 4 n.toNat))
  have hdigits : ∀ b ∈ digits, Octet.isDigit b = true := fun b => Octet.encode_digit fun c hc =>
    Decimal.isDigit_padded (String.toList_ofList ▸ hc)
  have hspace : ∀ b, (Octet.space :: rest).head? = some b → Octet.isDigit b = false := by
    rintro b ⟨⟩
    rfl
  refine ⟨digits ++ Octet.space :: rest, ?_, (Cursor.span_run hdigits hspace).1⟩
  rw [← hrest]
  simp [tag, digits, Utf8.encode]

/-- No line begins with two tags of one letter. -/
theorem eq_of_isFor (hm : isFor (tag letter m) frame = true) (hn : isFor (tag letter n) frame = true) :
    m = n := by
  obtain ⟨rest, hframe, hdigits⟩ := digits_of_isFor hm
  obtain ⟨rest', hframe', hdigits'⟩ := digits_of_isFor hn
  obtain rfl : rest = rest' := List.append_cancel_left (hframe.symm.trans hframe')
  have hsame := congrArg Utf8.lossy (hdigits.symm.trans hdigits')
  rw [Utf8.lossy_encode, Utf8.lossy_encode] at hsame
  exact UInt32.toNat_inj.mp (Decimal.padded_inj (String.ofList_inj.mp hsame))

/-- What begins with a tag is no data: behind a star there is a digit and not a space. -/
theorem isData_of_isFor (h : isFor (tag letter n) frame = true) : isData frame = false := by
  obtain ⟨rest, rfl, hdigits⟩ := digits_of_isFor h
  have hne : Utf8.encode (String.ofList (Decimal.padded 4 n.toNat)) ≠ [] :=
    Utf8.encode_ne_nil (String.toList_ofList ▸ Decimal.padded_ne_nil 4 n.toNat)
  rw [Bool.eq_false_iff]
  intro hdata
  obtain ⟨later, hlater⟩ := List.isPrefixOf_iff_prefix.mp hdata
  by_cases hascii : letter.toNat < 128
  · rw [Utf8.encodeChar_ascii hascii] at hlater
    have hrest : Octet.space :: later = rest := (List.cons.inj hlater).2
    rw [← hrest] at hdigits
    exact hne hdigits.symm
  · obtain ⟨first, more, hchar⟩ := List.exists_cons_of_ne_nil (String.utf8EncodeChar_ne_nil (c := letter))
    rw [hchar] at hlater
    have hfirst : Octet.star = first := (List.cons.inj hlater).1
    have hupper := Utf8.encodeChar_upper hascii (hchar ▸ List.mem_cons_self ..)
    exact absurd hupper (hfirst ▸ by decide)

/-- The line that completes a command is nothing to the others of the round. -/
theorem hear_of_closes (h : Closes (tag letter m) frame) (hne : m ≠ n) :
    hear (tag letter n) frame = .nothing := by
  unfold hear
  cases h with
  | completion h =>
    have hother : tag letter m ≠ tag letter n := fun heq => hne (tag_inj heq)
    rw [h]
    exact if_neg hother
  | malformed h hfor =>
    have hother : isFor (tag letter n) frame = false := Bool.eq_false_iff.mpr fun hn => hne (eq_of_isFor hfor hn)
    rw [h]
    simp [hother, isData_of_isFor hfor]

/-- A line that is nothing to a command does not complete it. -/
theorem not_closes_of_nothing {tag : String} (h : hear tag frame = .nothing) : ¬ Closes tag frame := by
  rintro (hread | ⟨hread, hfor⟩)
  · simp [hear, hread] at h
  · simp [hear, hread, hfor] at h

/-- The tags of a round are all different, no line begins with two of them, each with a space behind it,
and so many commands in a row have each its own. What completes one of these commands, well or badly, is
nothing to any other. -/
theorem upcoming_apart (s : TagSource) :
    (s.upcoming UInt32.size).length = UInt32.size ∧ (s.upcoming UInt32.size).Nodup ∧
      (∀ t ∈ s.upcoming UInt32.size, ∀ u ∈ s.upcoming UInt32.size, t ≠ u → ∀ frame,
        isFor t frame = true → isFor u frame = false) ∧
      ∀ (c : Connection) (commands : List Command), c.tags = s → commands.length ≤ UInt32.size →
        ∀ i < commands.length,
          (s.upcoming UInt32.size)[i]? = some (c.executeAll (commands.take i)).tags.current ∧
          ∀ frame, Closes (c.executeAll (commands.take i)).tags.current frame →
            ∀ j < commands.length, j ≠ i →
              hear (c.executeAll (commands.take j)).tags.current frame = .nothing ∧
              ¬ Closes (c.executeAll (commands.take j)).tags.current frame := by
  have hmember : ∀ {t}, t ∈ s.upcoming UInt32.size → ∃ n, t = tag s.letter n := by
    intro t ht
    rw [upcoming_eq] at ht
    obtain ⟨i, -, rfl⟩ := List.mem_map.mp ht
    exact ⟨_, rfl⟩
  refine ⟨length_upcoming s _, nodup_upcoming s, fun t ht u hu hne frame hfor => ?_, ?_⟩
  · obtain ⟨m, rfl⟩ := hmember ht
    obtain ⟨n, rfl⟩ := hmember hu
    exact Bool.eq_false_iff.mpr fun hfor' => hne (congrArg (tag s.letter) (eq_of_isFor hfor hfor'))
  · rintro c commands rfl hcount i hi
    have hcurrent : ∀ k < commands.length, (c.executeAll (commands.take k)).tags.current =
        tag c.tags.letter (c.tags.next + UInt32.ofNat k) := by
      intro k hk
      rw [executeAll_tags, List.length_take, Nat.min_eq_left (Nat.le_of_lt hk)]
      rfl
    refine ⟨?_, fun frame hcloses j hj hji => ?_⟩
    · rw [hcurrent i hi, upcoming_eq, List.getElem?_map, List.getElem?_range (hi.trans_le hcount)]
      rfl
    · rw [hcurrent i hi] at hcloses
      have hne : c.tags.next + UInt32.ofNat i ≠ c.tags.next + UInt32.ofNat j := fun heq =>
        hji (offset_inj (hi.trans_le hcount) (hj.trans_le hcount) heq).symm
      have hnothing := hear_of_closes hcloses hne
      rw [hcurrent j hj]
      exact ⟨hnothing, not_closes_of_nothing hnothing⟩

/-- A connection whose next tag is the last before the numbers start over. -/
def lastOfRound : Connection where
  incoming := [Octet.ofText "A4294967295 OK done\r\n", Octet.ofText "A0000 OK done\r\n"]
  ending := .closed
  tags := ⟨'A', 4294967295⟩

/-- The tags on both sides of the end of a round. -/
theorem upcoming_apart_lastOfRound :
    lastOfRound.tags.current = "A4294967295" ∧ (lastOfRound.executeAll [.capability]).tags.current = "A0000" ∧
      Closes "A4294967295" (Octet.ofText "A4294967295 OK done\r\n") ∧
      isFor "A0000" (Octet.ofText "A4294967295 OK done\r\n") = false ∧
      hear "A0000" (Octet.ofText "A4294967295 OK done\r\n") = .nothing := by
  have hcurrent : lastOfRound.tags.current = "A4294967295" := by decide +kernel
  have hnext : (lastOfRound.executeAll [.capability]).tags.current = "A0000" := by
    rw [executeAll_tags]
    decide +kernel
  have hread : Response.read (Octet.ofText "A4294967295 OK done\r\n") =
      .ok (.tagged "A4294967295" .ok none "done") := by
    rfl
  have hcloses : Closes "A4294967295" (Octet.ofText "A4294967295 OK done\r\n") := .completion hread
  obtain ⟨-, -, happart, hcommands⟩ := upcoming_apart lastOfRound.tags
  have htags := hcommands lastOfRound [.capability, .logout] rfl (by decide)
  obtain ⟨hfirst, hothers⟩ := htags 0 (by decide)
  obtain ⟨hnothing, -⟩ := hothers _ (hcurrent.symm ▸ hcloses) 1 (by decide) (by decide)
  have hmember : "A4294967295" ∈ lastOfRound.tags.upcoming UInt32.size :=
    hcurrent ▸ List.mem_of_getElem? hfirst
  have hmember' : "A0000" ∈ lastOfRound.tags.upcoming UInt32.size :=
    hnext ▸ List.mem_of_getElem? (htags 1 (by decide)).1
  have hfor : isFor "A4294967295" (Octet.ofText "A4294967295 OK done\r\n") = true := by decide +kernel
  exact ⟨hcurrent, hnext, hcloses, happart _ hmember _ hmember' (by decide) _ hfor, hnext ▸ hnothing⟩

end TagSource

end Mailroom
