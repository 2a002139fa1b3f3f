import Mailroom.Proofs.Text.Case
import Mailroom.Text.Blank

/-! Words with spaces between them, told apart again. -/
namespace Mailroom.Blank
variable {words : List String} {word : String}

/-- The words with a space in front of each. -/
def spaced (words : List String) : String := String.ofList (words.flatMap fun word => ' ' :: word.toList)

/-- Each of the words is more than nothing, and has no blank in it. -/
def Apart (words : List String) : Prop :=
  ∀ word ∈ words, word.toList ≠ [] ∧ ∀ c ∈ word.toList, isBlank c = false

theorem toList_spaced_cons (word : String) (words : List String) :
    (spaced (word :: words)).toList = ' ' :: (word.toList ++ (spaced words).toList) := by
  simp [spaced]

theorem encode_spaced_cons (word : String) (words : List String) :
    Utf8.encode (spaced (word :: words)) = Octet.space :: (Utf8.encode word ++ Utf8.encode (spaced words)) := by
  rw [Utf8.encode, toList_spaced_cons, List.flatMap_cons, List.flatMap_append]
  rfl

theorem head?_spaced (words : List String) :
    (Utf8.encode (spaced words)).head? = some Octet.space ∨ Utf8.encode (spaced words) = [] := by
  cases words with
  | nil => exact .inr rfl
  | cons word words =>
    rw [encode_spaced_cons]
    exact .inl rfl

/-- Nothing on a line but words and spaces. -/
theorem mem_spaced (h : Apart words) {c : Char} (hc : c ∈ (spaced words).toList) : c = ' ' ∨ isBlank c = false := by
  rw [spaced, String.toList_ofList] at hc
  obtain ⟨word, hword, hc⟩ := List.mem_flatMap.mp hc
  cases hc with
  | head => exact .inl rfl
  | tail _ hc => exact .inr ((h word hword).2 c hc)

/-- One character in front of what has been told apart: the word that it goes on with, and the words
behind. -/
def step (c : Char) (acc : List Char × List (List Char)) : List Char × List (List Char) :=
  if isBlank c then ([], flush acc.1 acc.2) else (c :: acc.1, acc.2)

theorem foldr_word {cs : List Char} (h : ∀ c ∈ cs, isBlank c = false) (split : List (List Char)) :
    cs.foldr step ([], split) = (cs, split) := by
  induction cs with
  | nil => rfl
  | cons c cs ih =>
    obtain ⟨hc, hcs⟩ := List.forall_mem_cons.mp h
    simp [ih hcs, step, hc]

theorem foldr_spaced (h : Apart words) :
    (spaced words).toList.foldr step ([], []) = ([], words.map String.toList) := by
  induction words with
  | nil => rfl
  | cons word words ih =>
    obtain ⟨⟨hne, hword⟩, hwords⟩ := List.forall_mem_cons.mp h
    have hspace : isBlank ' ' = true := rfl
    rw [toList_spaced_cons, List.foldr_cons, List.foldr_append, ih hwords, foldr_word hword]
    simp [step, hspace, flush, hne]

theorem words_spaced (h : Apart words) : Blank.words (spaced words) = words := by
  have hsplit : Blank.words (spaced words) =
      (flush ((spaced words).toList.foldr step ([], [])).1
        ((spaced words).toList.foldr step ([], [])).2).map String.ofList := rfl
  rw [hsplit, foldr_spaced h]
  simp [flush]

/-- Letter case makes no blank. -/
theorem isBlank_of_upper (h : ∀ c ∈ (Ascii.upper word).toList, isBlank c = false) :
    ∀ c ∈ word.toList, isBlank c = false := by
  intro c hc
  obtain hsame | ⟨hlow, hhigh⟩ := Ascii.toUpper_cases c
  · refine h c ?_
    rw [Ascii.upper, String.toList_ofList, List.mem_map]
    exact ⟨c, hc, hsame⟩
  · simp only [isBlank, Bool.or_eq_false_iff, Bool.and_eq_false_iff, decide_eq_false_iff_not, beq_eq_false_iff_ne]
    omega

theorem isBlank_digit {c : Char} (h : c.isDigit = true) : isBlank c = false := by
  simp only [Char.isDigit, Bool.and_eq_true, decide_eq_true_eq, UInt32.le_iff_toNat_le] at h
  have hlow : 0x30 ≤ c.toNat := h.1
  have hhigh : c.toNat ≤ 0x39 := h.2
  simp only [isBlank, Bool.or_eq_false_iff, Bool.and_eq_false_iff, decide_eq_false_iff_not, beq_eq_false_iff_ne]
  omega

end Mailroom.Blank
