import Mailroom.Text.Casing

/-! Texts that are in small letters already.

A character is `Small` if it stays as it is among any others. What a run of capitals is lowered to lies
apart from the capitals of every run, which is decided once for all pairs of runs (`lowerRuns_apart`), so
each character is lowered to small ones, also where its neighbours decide how. Lowering a text twice is
therefore lowering it once (`lower_lower`). -/
namespace Mailroom.Casing

/-! ### Runs of capitals -/

/-- Capitals and their small letters: the first and the last capital, how far one capital is from the next,
and the small letter of the first. -/
abbrev Run := Nat × Nat × Nat × Nat

/-- Whether a number is that of a capital of the run. -/
def capitalOf (n : Nat) : Run → Bool :=
  fun (first, last, step, _) => first ≤ n && n ≤ last && (n - first) % step == 0

/-- The number of the small letter that belongs to a capital of the run. -/
def smallOf (n : Nat) : Run → Nat :=
  fun (first, _, _, image) => image + (n - first)

/-- The number of the last small letter of the run. -/
def lastSmall (run : Run) : Nat := run.2.2.2 + (run.2.1 - run.1)

/-- Whether only every other number from the first small letter to the last is that of one. -/
def alternates (run : Run) : Bool := run.2.2.1.beq 2 || run.1.beq run.2.1

/-- Whether the small letters from `low` to `high` are no capitals of the run, because they lie on one side of
them, or are every other number and the capitals are the others. -/
def apart (low high : Nat) (alternating : Bool) (run : Run) : Bool :=
  high.blt run.1 || run.2.1.blt low || alternating && run.2.2.1.beq 2 && !(low % 2).beq (run.1 % 2)

theorem capitalOf_iff {n first last step image : Nat} :
    capitalOf n (first, last, step, image) = true ↔ first ≤ n ∧ n ≤ last ∧ (n - first) % step = 0 := by
  simp [capitalOf, and_assoc]

theorem apart_iff {low high : Nat} {alternating : Bool} {run : Run} :
    apart low high alternating run = true ↔
      (high < run.1 ∨ run.2.1 < low) ∨
        (alternating = true ∧ run.2.2.1 = 2) ∧ low % 2 ≠ run.1 % 2 := by
  simp only [apart, Bool.or_eq_true, Bool.and_eq_true, Bool.not_eq_true', Nat.blt_eq, Nat.beq_eq,
    ← Bool.not_eq_true, ne_eq]

theorem not_capital_of_apart {run other : Run} {n : Nat}
    (h : apart run.2.2.2 (lastSmall run) (alternates run) other = true) (hn : capitalOf n run = true) :
    capitalOf (smallOf n run) other = false := by
  obtain ⟨first, last, step, image⟩ := run
  obtain ⟨first', last', step', image'⟩ := other
  obtain ⟨hfirst, hlast, hplace⟩ := capitalOf_iff.mp hn
  refine Bool.eq_false_iff.mpr fun hother => ?_
  obtain ⟨hfirst', hlast', hplace'⟩ := capitalOf_iff.mp hother
  simp only [apart_iff, alternates, lastSmall, Bool.or_eq_true, Nat.beq_eq] at h
  dsimp only [smallOf] at hfirst' hlast' hplace'
  obtain (hbelow | habove) | ⟨⟨hstep, rfl⟩, hparity⟩ := h
  · omega
  · omega
  · obtain rfl | rfl := hstep
    · omega
    · omega

/-- The capital that has two small letters. It belongs to no run. -/
def doubled : Run := (0x130, 0x130, 1, 0x69)

/-- The capital that has another small letter at the end of a word. -/
def ending : Run := (0x3a3, 0x3a3, 1, 0x3c3)

/-- Small letters are no capitals, and they are characters. -/
theorem lowerRuns_apart :
    (lowerRuns.all fun run =>
      (doubled :: ending :: lowerRuns).all (apart run.2.2.2 (lastSmall run) (alternates run)) &&
        ((lastSmall run).blt 0xd800 || Nat.blt 0xdfff run.2.2.2 && (lastSmall run).blt 0x110000)) = true := by
  decide +kernel

/-! ### Small characters -/

/-- Whether a character is lowered to itself, whatever stands around it. -/
structure Small (c : Char) : Prop where
  not_ending : c ≠ 'Σ'
  not_doubled : c ≠ 'İ'
  lowered : lowerChar c = c

instance (c : Char) : Decidable (Small c) :=
  decidable_of_iff (c ≠ 'Σ' ∧ c ≠ 'İ' ∧ lowerChar c = c)
    ⟨fun ⟨hending, hdoubled, hlowered⟩ => ⟨hending, hdoubled, hlowered⟩, fun h =>
      ⟨h.not_ending, h.not_doubled, h.lowered⟩⟩

theorem small_toLower {c : Char} (h : c.toNat < 128) : Small c.toLower := by
  have hall : ∀ n < 128, Small (Char.ofNat n).toLower := by decide +kernel
  rw [← Char.ofNat_toNat c]
  exact hall c.toNat h

theorem lowerChar_upper {c : Char} (h : ¬ c.toNat < 128) :
    lowerChar c = match lowerRuns.find? (capitalOf c.toNat) with
      | some run => Char.ofNat (smallOf c.toNat run)
      | none => c := by
  unfold lowerChar
  rw [if_neg h]
  change (match lowerRuns.find? (capitalOf c.toNat) with
    | some (first, _, _, image) => Char.ofNat (image + (c.toNat - first))
    | none => c) = _
  cases lowerRuns.find? (capitalOf c.toNat) <;> rfl

/-- The capitals in ASCII are a run as well. -/
theorem toLower_of_not_capital {c : Char} (h : ∀ run ∈ lowerRuns, capitalOf c.toNat run = false) :
    c.toLower = c := by
  have hrun : (0x41, 0x5a, 1, 0x61) ∈ lowerRuns := by decide +kernel
  unfold Char.toLower
  refine dif_neg fun hc => ?_
  have hlow : 0x41 ≤ c.toNat := UInt32.le_iff_toNat_le.mp hc.1
  have hhigh : c.toNat ≤ 0x5a := UInt32.le_iff_toNat_le.mp hc.2
  have hcapital : capitalOf c.toNat (0x41, 0x5a, 1, 0x61) = true :=
    capitalOf_iff.mpr ⟨hlow, hhigh, Nat.mod_one _⟩
  exact absurd hcapital (by rw [h _ hrun]; exact nofun)

/-- What is a capital nowhere is small. -/
theorem small_of_not_capital {c : Char}
    (h : ∀ run ∈ doubled :: ending :: lowerRuns, capitalOf c.toNat run = false) : Small c where
  not_ending := by
    rintro rfl
    exact absurd (h ending (List.mem_cons_of_mem _ List.mem_cons_self)) (by decide)
  not_doubled := by
    rintro rfl
    exact absurd (h doubled List.mem_cons_self) (by decide)
  lowered := by
    have hruns : ∀ run ∈ lowerRuns, capitalOf c.toNat run = false := fun run hrun =>
      h run (List.mem_cons_of_mem _ (List.mem_cons_of_mem _ hrun))
    by_cases hc : c.toNat < 128
    · rw [lowerChar, if_pos hc, toLower_of_not_capital hruns]
    · rw [lowerChar_upper hc, List.find?_eq_none.mpr fun run hrun => by rw [hruns run hrun]; exact nofun]

/-- The small letter of a capital is small. -/
theorem small_smallOf {run : Run} {n : Nat} (hrun : run ∈ lowerRuns) (hn : capitalOf n run = true) :
    Small (Char.ofNat (smallOf n run)) := by
  obtain ⟨hapart, hvalid⟩ := Bool.and_eq_true_iff.mp (List.all_eq_true.mp lowerRuns_apart run hrun)
  simp only [Bool.or_eq_true, Bool.and_eq_true, Nat.blt_eq] at hvalid
  have hnumber : (Char.ofNat (smallOf n run)).toNat = smallOf n run := by
    obtain ⟨first, last, step, image⟩ := run
    obtain ⟨hfirst, hlast, -⟩ := capitalOf_iff.mp hn
    dsimp only [smallOf, lastSmall] at hvalid ⊢
    have hchar : (image + (n - first)).isValidChar := by
      obtain hlow | ⟨hlow, hhigh⟩ := hvalid
      · exact .inl (by omega)
      · exact .inr ⟨by omega, by omega⟩
    rw [Char.ofNat, dif_pos hchar]
    rfl
  refine small_of_not_capital fun other hother => ?_
  rw [hnumber]
  exact not_capital_of_apart (List.all_eq_true.mp hapart other hother) hn

theorem small_lowerChar {c : Char} (hending : c ≠ 'Σ') (hdoubled : c ≠ 'İ') : Small (lowerChar c) := by
  by_cases hc : c.toNat < 128
  · rw [lowerChar, if_pos hc]
    exact small_toLower hc
  · have hlowered := lowerChar_upper hc
    cases hfind : lowerRuns.find? (capitalOf c.toNat) with
    | some run =>
      rw [hfind] at hlowered
      rw [hlowered]
      exact small_smallOf (List.mem_of_find?_eq_some hfind) (List.find?_some hfind)
    | none =>
      rw [hfind] at hlowered
      rw [hlowered]
      exact ⟨hending, hdoubled, hlowered⟩

/-! ### Texts -/

theorem small_lowerFrom {before cs : List Char} : ∀ c ∈ lowerFrom before cs, Small c := by
  induction cs generalizing before with
  | nil => exact nofun
  | cons d rest ih =>
    intro c hc
    simp only [lowerFrom, List.mem_append] at hc
    obtain hc | hc := hc
    · split at hc
      · rw [List.mem_singleton] at hc
        split at hc <;> (rw [hc]; decide +kernel)
      · next hending =>
        split at hc
        · simp only [List.mem_cons, List.not_mem_nil, or_false] at hc
          obtain rfl | rfl := hc <;> decide +kernel
        · next hdoubled =>
          rw [List.mem_singleton.mp hc]
          exact small_lowerChar hending hdoubled
    · exact ih c hc

/-- Small characters stay as they are. -/
theorem lowerFrom_small {before cs : List Char} (h : ∀ c ∈ cs, Small c) : lowerFrom before cs = cs := by
  induction cs generalizing before with
  | nil => rfl
  | cons c rest ih =>
    have hc : Small c := h c List.mem_cons_self
    rw [lowerFrom, if_neg hc.not_ending, if_neg hc.not_doubled, hc.lowered,
      ih fun d hd => h d (List.mem_cons_of_mem c hd)]
    rfl

/-- A text in small letters is in small letters already. -/
theorem lower_lower (s : String) : lower (lower s) = lower s := by
  rw [lower, lower, String.toList_ofList, lowerFrom_small small_lowerFrom]

end Mailroom.Casing
