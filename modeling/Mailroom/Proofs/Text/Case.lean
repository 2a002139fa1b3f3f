import Mailroom.Proofs.Text.Bytes

/-! Words in any letter case.

A word that goes by a name differs from it in letters only, so that what is known of the bytes of the name
is known of its own, as long as no letter is an exception. -/
namespace Mailroom.Ascii
variable {s : String}

theorem toUpper_cases (c : Char) : c.toUpper = c ∨ 0x61 ≤ c.toNat ∧ c.toNat ≤ 0x7a := by
  unfold Char.toUpper
  split
  · next h => exact .inr ⟨UInt32.le_iff_toNat_le.mp h.1, UInt32.le_iff_toNat_le.mp h.2⟩
  · exact .inl rfl

/-- A letter in capitals is no small letter and no digit. -/
theorem toUpper_letter {c : Char} (hlow : 0x61 ≤ c.toNat) (hhigh : c.toNat ≤ 0x7a) :
    c.toUpper.toUpper = c.toUpper ∧ c.toUpper.isDigit = false := by
  have hchar := Char.ofNat_toNat c
  rw [← hchar]
  generalize c.toNat = n at *
  interval_cases n <;> decide

theorem toUpper_digit {c : Char} (h : c.isDigit = true) : c.toUpper = c := by
  obtain hsame | ⟨hlow, -⟩ := toUpper_cases c
  · exact hsame
  · simp only [Char.isDigit, Bool.and_eq_true, decide_eq_true_eq] at h
    have hhigh : c.toNat ≤ 0x39 := UInt32.le_iff_toNat_le.mp h.2
    omega

/-- Digits have no case. -/
theorem upper_digits (h : ∀ c ∈ s.toList, c.isDigit = true) : upper s = s := by
  rw [upper, List.map_congr_left fun c hc => toUpper_digit (h c hc), List.map_id'', String.ofList_toList]
  exact fun _ => rfl

/-- What holds of the small letters and of the bytes of a text in capitals, holds of the text itself. -/
theorem mem_encode_of_upper {P : UInt8 → Prop} (hletters : ∀ b, 0x61 ≤ b → b ≤ 0x7a → P b)
    (h : ∀ b ∈ Utf8.encode (upper s), P b) : ∀ b ∈ Utf8.encode s, P b := by
  intro b hb
  obtain ⟨c, hc, hbc⟩ := List.mem_flatMap.mp hb
  obtain hsame | ⟨hlow, hhigh⟩ := toUpper_cases c
  · refine h b (List.mem_flatMap.mpr ⟨c, ?_, hbc⟩)
    rw [upper, String.toList_ofList, List.mem_map]
    exact ⟨c, hc, hsame⟩
  · rw [Utf8.encodeChar_ascii (by omega), List.mem_singleton] at hbc
    have hnumber : b.toNat = c.toNat := by rw [hbc, Utf8.toNat_byte (by omega)]
    refine hletters b ?_ ?_ <;> rw [UInt8.le_iff_toNat_le, hnumber]
    · exact hlow
    · exact hhigh

theorem upper_append (s t : String) : upper (s ++ t) = upper s ++ upper t := by
  rw [upper, String.toList_append, List.map_append, String.ofList_append]
  rfl

theorem startsWith_append (start s : String) : startsWith start (start ++ s) = true := by
  rw [startsWith, String.toList_append, List.isPrefixOf_iff_prefix]
  exact List.prefix_append ..

theorem after?_append (start s : String) : after? start (start ++ s) = some s := by
  rw [after?, startsWith_append, String.toList_append, List.drop_left, String.ofList_toList]
  rfl

theorem toUpper_of_digit {c : Char} (h : c.toUpper.isDigit = true) : c.toUpper = c := by
  obtain hsame | ⟨hlow, hhigh⟩ := toUpper_cases c
  · exact hsame
  · rw [(toUpper_letter hlow hhigh).2] at h
    cases h

theorem upper_upper (s : String) : upper (upper s) = upper s := by
  rw [upper, upper, String.toList_ofList, List.map_map]
  refine congrArg String.ofList (List.map_congr_left fun c _ => ?_)
  show c.toUpper.toUpper = c.toUpper
  obtain hsame | ⟨hlow, hhigh⟩ := toUpper_cases c
  · rw [hsame, hsame]
  · exact (toUpper_letter hlow hhigh).1

/-- A number is spelled in digits, which have no case. -/
theorem digits?_upper (s : String) : Decimal.digits? (upper s).toList = Decimal.digits? s.toList := by
  by_cases hsame : ∀ c ∈ s.toList, c.toUpper = c
  · rw [upper, String.toList_ofList, List.map_congr_left hsame, List.map_id'' fun _ => rfl]
  · have hnone : Decimal.digits? s.toList = none :=
      Option.eq_none_iff_forall_ne_some.mpr fun n hn => hsame fun c hc =>
        toUpper_digit (Decimal.isDigit_of_digits? hn c hc)
    rw [hnone, Option.eq_none_iff_forall_ne_some]
    intro n hn
    refine hsame fun c hc => toUpper_of_digit (Decimal.isDigit_of_digits? hn _ ?_)
    rw [upper, String.toList_ofList]
    exact List.mem_map_of_mem hc

end Mailroom.Ascii
