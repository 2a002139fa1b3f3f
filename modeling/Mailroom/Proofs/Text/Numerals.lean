import Mathlib.Data.List.Forall2
import Mathlib.Data.List.TakeWhile
import Mailroom.Proofs.Text.Words
import Mailroom.Text.Split

/-! Numbers as they are written down.

`Decimal.Spells` says which texts spell a number, and reading one is exactly that
(`unsigned?_eq_some_iff`). A text is cut at a separator into the pieces that it joins
(`pieces_eq_splitOn`), and trimming takes away the blanks around (`trim_around`). -/
namespace Mailroom

/-- What a list is read as, member by member. -/
theorem mapM_eq_some_iff {α β : Type} {f : α → Option β} {xs : List α} {ys : List β} :
    xs.mapM f = some ys ↔ List.Forall₂ (fun x y => f x = some y) xs ys := by
  induction xs generalizing ys with
  | nil => simp [eq_comm]
  | cons x xs ih =>
    simp only [List.mapM_cons, List.forall₂_cons_left_iff, ← ih]
    rcases f x with _ | y <;> rcases xs.mapM f with _ | rest <;> simp [eq_comm]

namespace Decimal
variable {cs : List Char} {n bound : Nat}

/-- The characters spell the number: digits, at least one, with a plus sign in front or not. -/
inductive Spells : List Char → Nat → Prop
  | plain {digits : List Char} (hne : digits ≠ []) (hdigits : ∀ c ∈ digits, c.isDigit = true) :
    Spells digits (Nat.ofDigitChars 10 digits 0)
  | signed {digits : List Char} (hne : digits ≠ []) (hdigits : ∀ c ∈ digits, c.isDigit = true) :
    Spells ('+' :: digits) (Nat.ofDigitChars 10 digits 0)

theorem digits?_eq_some_iff :
    digits? cs = some n ↔ cs ≠ [] ∧ (∀ c ∈ cs, c.isDigit = true) ∧ Nat.ofDigitChars 10 cs 0 = n := by
  unfold digits?
  by_cases h : cs ≠ [] ∧ ∀ c ∈ cs, c.isDigit = true
  · rw [if_neg (by simpa using h), Option.some.injEq, ← and_assoc, and_iff_right h]
  · rw [if_pos (by simpa [Classical.or_iff_not_imp_left] using h), ← and_assoc]
    simp [h]

/-- Reading a number is reading what spells it, as long as it is small enough. -/
theorem unsigned?_eq_some_iff {s : String} :
    unsigned? bound s = some n ↔ Spells s.toList n ∧ n < bound := by
  have hread : ∀ {cs m}, (digits? cs).filter (· < bound) = some m ↔ digits? cs = some m ∧ m < bound := by
    simp [Option.filter_eq_some_iff]
  unfold unsigned?
  split
  · next rest hs =>
    rw [hread, hs, digits?_eq_some_iff]
    refine and_congr_left fun _ => ⟨fun ⟨hne, hdigits, hvalue⟩ => hvalue ▸ .signed hne hdigits, fun h => ?_⟩
    cases h with
    | plain _ hdigits => exact absurd (hdigits '+' List.mem_cons_self) (by decide)
    | signed hne hdigits => exact ⟨hne, hdigits, rfl⟩
  · next hplain =>
    rw [hread, digits?_eq_some_iff]
    refine and_congr_left fun _ => ⟨fun ⟨hne, hdigits, hvalue⟩ => hvalue ▸ .plain hne hdigits, fun h => ?_⟩
    generalize s.toList = cs at h hplain
    cases h with
    | plain hne hdigits => exact ⟨hne, hdigits, rfl⟩
    | signed => exact absurd rfl (hplain _)

/-- No number is spelled by nothing. -/
theorem Spells.ne_nil (h : Spells cs n) : cs ≠ [] := by
  cases h with
  | plain hne => exact hne
  | signed => exact List.cons_ne_nil _ _

/-- Every character is a plus sign or a digit. -/
theorem Spells.mem (h : Spells cs n) {c : Char} (hc : c ∈ cs) : c = '+' ∨ c.isDigit = true := by
  cases h with
  | plain _ hdigits => exact .inr (hdigits c hc)
  | signed _ hdigits => exact (List.mem_cons.mp hc).imp_right (hdigits c)

theorem Spells.not_blank (h : Spells cs n) {c : Char} (hc : c ∈ cs) : Blank.isBlank c = false := by
  obtain rfl | hdigit := h.mem hc
  · rfl
  · exact Blank.isBlank_digit hdigit

theorem Spells.no_dash (h : Spells cs n) : '-' ∉ cs := by
  intro hdash
  obtain hplus | hdigit := h.mem hdash
  · exact absurd hplus (by decide)
  · exact absurd hdigit (by decide)

theorem ofDigitChars_lt (h : ∀ c ∈ cs, c.isDigit = true) : Nat.ofDigitChars 10 cs 0 < 10 ^ cs.length := by
  induction cs with
  | nil => simp
  | cons c cs ih =>
    obtain ⟨hc, hcs⟩ := List.forall_mem_cons.mp h
    have hdigit : c.toNat - '0'.toNat ≤ 9 := by
      simp only [Char.isDigit, Bool.and_eq_true, decide_eq_true_eq, UInt32.le_iff_toNat_le] at hc
      have hhigh : c.toNat ≤ 0x39 := hc.2
      have hzero : '0'.toNat = 0x30 := rfl
      omega
    have hhead : 10 ^ cs.length * (10 * 0 + (c.toNat - '0'.toNat)) ≤ 10 ^ cs.length * 9 :=
      Nat.mul_le_mul_left _ (by omega)
    have hrest := ih hcs
    rw [Nat.ofDigitChars_cons, Nat.ofDigitChars_eq_ofDigitChars_zero, List.length_cons, Nat.pow_succ]
    omega

/-- Nothing that spells a number is shorter than its digits. -/
theorem Spells.length_digits_le (h : Spells cs n) : (digits n).length ≤ cs.length := by
  have hdigits : ∀ {ds : List Char}, ds ≠ [] → (∀ c ∈ ds, c.isDigit = true) →
      (digits (Nat.ofDigitChars 10 ds 0)).length ≤ ds.length := fun hne hall =>
    (Nat.length_toDigits_le_iff (by decide) (List.length_pos_iff.mpr hne)).mpr (ofDigitChars_lt hall)
  cases h with
  | plain hne hall => exact hdigits hne hall
  | signed hne hall => exact (hdigits hne hall).trans (Nat.le_succ _)

theorem spells_digits (n : Nat) : Spells (digits n) n := by
  have hspells : Spells (digits n) (Nat.ofDigitChars 10 (digits n) 0) :=
    .plain Nat.toDigits_ne_nil fun c => Nat.isDigit_of_mem_toDigits (by decide) (by decide)
  rwa [show Nat.ofDigitChars 10 (digits n) 0 = n from Nat.ofDigitChars_ten_toDigits] at hspells

theorem isDigit_digits {n : Nat} {c : Char} (h : c ∈ digits n) : c.isDigit = true :=
  Nat.isDigit_of_mem_toDigits (by decide) (by decide) h

theorem isDigit_padded {width n : Nat} {c : Char} (h : c ∈ padded width n) : c.isDigit = true := by
  rcases List.mem_append.mp h with hzero | hdigit
  · rw [List.eq_of_mem_replicate hzero]
    rfl
  · exact isDigit_digits hdigit

theorem padded_ne_nil (width n : Nat) : padded width n ≠ [] :=
  List.append_ne_nil_of_right_ne_nil _ Nat.toDigits_ne_nil

theorem length_padded {width n : Nat} (h : n < 10 ^ width) (hwidth : 0 < width) :
    (padded width n).length = width := by
  have hle : (digits n).length ≤ width := (Nat.length_toDigits_le_iff (by decide) hwidth).mpr h
  rw [padded, List.length_append, List.length_replicate]
  exact Nat.sub_add_cancel hle

theorem le_length_padded (width n : Nat) : width ≤ (padded width n).length := by
  rw [padded, List.length_append, List.length_replicate]
  omega

theorem ofDigitChars_padded (width n : Nat) : Nat.ofDigitChars 10 (padded width n) 0 = n := by
  rw [padded, Nat.ofDigitChars_append, Nat.ofDigitChars_replicate_zero]
  exact Nat.ofDigitChars_ten_toDigits

/-- A number is read back from its digits and the zeros in front of them. -/
theorem digits?_padded (width n : Nat) : digits? (padded width n) = some n := by
  have hdigits : ((padded width n).isEmpty || !(padded width n).all Char.isDigit) = false := by
    rw [Bool.or_eq_false_iff, List.isEmpty_eq_false_iff, Bool.not_eq_false', List.all_eq_true]
    exact ⟨padded_ne_nil width n, fun c => isDigit_padded⟩
  rw [digits?, hdigits, ofDigitChars_padded]
  rfl

/-- Numbers with dashes between them have no blank among them. -/
theorem not_blank_of_dashed {pieces : List (List Char)} (h : ∀ piece ∈ pieces, ∃ n, Spells piece n) :
    ∀ c ∈ ['-'].intercalate pieces, Blank.isBlank c = false := by
  induction pieces with
  | nil => simp
  | cons piece rest ih =>
    obtain ⟨⟨n, hpiece⟩, hrest⟩ := List.forall_mem_cons.mp h
    intro c hc
    rcases rest with _ | ⟨next, rest⟩
    · rw [List.intercalate_singleton] at hc
      exact hpiece.not_blank hc
    · rw [List.intercalate_cons_cons, List.append_assoc, List.mem_append, List.mem_append,
        List.mem_singleton] at hc
      rcases hc with hc | rfl | hc
      · exact hpiece.not_blank hc
      · rfl
      · exact ih hrest c hc

end Decimal

namespace Split

/-- The pieces are those that the library cuts. -/
theorem pieces_eq_splitOn (separator : Char) (cs : List Char) :
    pieces separator cs = cs.splitOn separator := by
  induction cs with
  | nil => rfl
  | cons c cs ih =>
    rw [List.splitOn, List.splitOnP_cons_eq_if_modifyHead, ← List.splitOn, ← ih, pieces, List.foldr_cons]
    by_cases hc : c = separator <;> simp [hc, pieces]

/-- With one separator to each, the pieces are one longer than the text. -/
theorem sum_length_pieces (separator : Char) (cs : List Char) :
    ((pieces separator cs).map fun piece => piece.length + 1).sum = cs.length + 1 := by
  induction cs with
  | nil => rfl
  | cons c cs ih =>
    rw [pieces, List.map_cons, List.sum_cons] at ih
    rw [pieces, List.foldr_cons, List.length_cons, ← ih]
    by_cases hc : c = separator
    · simp only [hc, if_true, List.map_cons, List.sum_cons, List.length_nil]
      omega
    · simp only [hc, if_false, List.map_cons, List.sum_cons, List.length_cons]
      omega

end Split

namespace Blank
variable {before core after : List Char}

theorem toList_trim (s : String) : (trim s).toList = trimEnd (trimStart s.toList) := String.toList_ofList

/-- What is trimmed away are blanks. -/
theorem trim_between (s : String) : ∃ before after, s.toList = before ++ (trim s).toList ++ after ∧
    ∀ c ∈ before ++ after, isBlank c = true := by
  let start := s.toList.takeWhile isBlank
  let rest := (trimStart s.toList).reverse.takeWhile isBlank
  have hstart : s.toList = start ++ trimStart s.toList := List.takeWhile_append_dropWhile.symm
  have hrest : trimStart s.toList = (trim s).toList ++ rest.reverse := by
    rw [toList_trim, trimEnd, ← List.reverse_append, List.takeWhile_append_dropWhile, List.reverse_reverse]
  refine ⟨start, rest.reverse, by rw [List.append_assoc, ← hrest, ← hstart], fun c hc => ?_⟩
  obtain hc | hc := List.mem_append.mp hc
  · exact List.mem_takeWhile_imp hc
  · exact List.mem_takeWhile_imp (List.mem_reverse.mp hc)

theorem dropWhile_around (hbefore : ∀ c ∈ before, isBlank c = true) (hne : core ≠ [])
    (hcore : ∀ c ∈ core, isBlank c = false) : (before ++ (core ++ after)).dropWhile isBlank = core ++ after := by
  rw [List.dropWhile_append_of_pos hbefore]
  cases core with
  | nil => exact absurd rfl hne
  | cons c core => exact List.dropWhile_cons_of_neg (by simp [hcore])

/-- Of a text between blanks, that has none itself, the text is left. -/
theorem trim_around {s : String} (hs : s.toList = before ++ core ++ after)
    (hblank : ∀ c ∈ before ++ after, isBlank c = true) (hne : core ≠ [])
    (hcore : ∀ c ∈ core, isBlank c = false) : (trim s).toList = core := by
  have hstart : trimStart s.toList = core ++ after := by
    rw [hs, trimStart, List.append_assoc]
    exact dropWhile_around (fun c hc => hblank c (List.mem_append_left after hc)) hne hcore
  have hend : (after.reverse ++ (core.reverse ++ [])).dropWhile isBlank = core.reverse ++ [] :=
    dropWhile_around (by simpa using fun c hc => hblank c (List.mem_append_right before hc)) (by simpa using hne)
      (by simpa using hcore)
  rw [List.append_nil] at hend
  rw [toList_trim, hstart, trimEnd, List.reverse_append, hend, List.reverse_reverse]

theorem dropWhile_reverse (h : ∀ c ∈ core.getLast?, isBlank c = false) :
    core.reverse.dropWhile isBlank = core.reverse := by
  rw [← List.head?_reverse] at h
  rcases hreverse : core.reverse with _ | ⟨c, cs⟩
  · rfl
  · rw [hreverse] at h
    exact List.dropWhile_cons_of_neg (by simpa using h c rfl)

/-- A text that does not end in a blank stays, whatever follows. -/
theorem isPrefix_trimEnd (h : ∀ c ∈ core.getLast?, isBlank c = false) (after : List Char) :
    core <+: trimEnd (core ++ after) := by
  rw [trimEnd, List.reverse_append, List.dropWhile_append, dropWhile_reverse h]
  split
  · simp only [List.reverse_reverse, List.prefix_rfl]
  · rw [List.reverse_append, List.reverse_reverse]
    exact List.prefix_append _ _

/-- Without blanks at its ends a text stays as it is. -/
theorem trim_of_ends {s : String} (hfirst : ∀ c ∈ s.toList.head?, isBlank c = false)
    (hlast : ∀ c ∈ s.toList.getLast?, isBlank c = false) : trim s = s := by
  have hstart : trimStart s.toList = s.toList := by
    have hkept : s.toList.reverse.reverse.dropWhile isBlank = s.toList.reverse.reverse :=
      dropWhile_reverse (by rwa [List.getLast?_reverse])
    rwa [List.reverse_reverse] at hkept
  rw [← String.toList_inj, toList_trim, hstart, trimEnd, dropWhile_reverse hlast, List.reverse_reverse]

end Blank

end Mailroom
