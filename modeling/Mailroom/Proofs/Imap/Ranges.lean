import Mathlib.Algebra.Order.BigOperators.Group.List
import Mathlib.Data.List.Pairwise
import Mailroom.Imap.Uid
import Mailroom.Proofs.Sorted.Views
import Mailroom.Proofs.Text.Numerals

/-! Sets of identifiers as text, read back.

A written set is a row of terms, each one number or all numbers from one to another. Read as that
(`terms?`) the text of a set gives its members back in order, its terms leave gaps between them, and no
other text that gives the same numbers has fewer terms or is shorter (`text_expands`). Writing compares a
number with the one after the last, and in 32 bits there may be none: `written?` fails then, and this never
happens (`written?_toList`). -/
namespace Mailroom.UidSet

/-! ### The terms of a written set -/

/-- A number, or all numbers from one to another. -/
inductive Term
  | number (n : Nat)
  | range (first last : Nat)
  deriving DecidableEq

namespace Term

def first : Term → Nat
  | number n => n
  | range first _ => first

def last : Term → Nat
  | number n => n
  | range _ last => last

/-- The numbers for which the term stands, ascending. -/
def numbers (t : Term) : List Nat := List.range' t.first (t.last + 1 - t.first)

/-- The term as it is written. -/
def written : Term → List Char
  | number n => Decimal.digits n
  | range first last => Decimal.digits first ++ ':' :: Decimal.digits last

/-- The number of 32 bits that a text spells. -/
def number? (cs : List Char) : Option Nat := Decimal.unsigned? UInt32.size (String.ofList cs)

/-- The term that a text spells: a number, or two with a colon between them. -/
def ofText? (cs : List Char) : Option Term :=
  match Split.pieces ':' cs with
  | [n] => (number? n).map number
  | [first, last] => do pure (range (← number? first) (← number? last))
  | _ => none

/-- A range of numbers as a term. -/
def ofRange (r : Nat × Nat) : Term := if r.1 = r.2 then number r.1 else range r.1 r.2

variable {t : Term} {r : Nat × Nat} {cs : List Char} {n : Nat}

@[simp] theorem mem_numbers : n ∈ t.numbers ↔ t.first ≤ n ∧ n ≤ t.last := by
  rw [numbers, List.mem_range'_1]
  omega

@[simp] theorem first_ofRange (r : Nat × Nat) : (ofRange r).first = r.1 := by
  unfold ofRange
  split <;> rfl

@[simp] theorem last_ofRange (r : Nat × Nat) : (ofRange r).last = r.2 := by
  unfold ofRange
  split
  · next h => exact h
  · rfl

theorem toList_rangeText (r : Nat × Nat) : (rangeText r).toList = (ofRange r).written := by
  unfold rangeText ofRange
  split <;> simp [written, Decimal.text]

theorem number?_eq_some_iff : number? cs = some n ↔ Decimal.Spells cs n ∧ n < UInt32.size := by
  rw [number?, Decimal.unsigned?_eq_some_iff, String.toList_ofList]

theorem number?_digits (h : n < UInt32.size) : number? (Decimal.digits n) = some n :=
  number?_eq_some_iff.mpr ⟨Decimal.spells_digits n, h⟩

theorem colon_not_mem_digits (n : Nat) : ':' ∉ Decimal.digits n :=
  fun h => absurd (Decimal.isDigit_digits h) (by decide)

theorem comma_not_mem_written (t : Term) : ',' ∉ t.written := by
  have hdigits : ∀ n, ',' ∉ Decimal.digits n := fun n h => absurd (Decimal.isDigit_digits h) (by decide)
  cases t with
  | number n => exact hdigits n
  | range first last => simp [written, hdigits]

/-- A term of numbers of 32 bits is read back from what is written. -/
theorem ofText?_written (hfirst : t.first < UInt32.size) (hlast : t.last < UInt32.size) :
    ofText? t.written = some t := by
  have hcut : ∀ parts : List (List Char), (∀ part ∈ parts, ':' ∉ part) → parts ≠ [] →
      Split.pieces ':' ([':'].intercalate parts) = parts := by
    intro parts hparts hne
    rw [Split.pieces_eq_splitOn, List.splitOn_intercalate ':' hparts hne]
  cases t with
  | number n =>
    have hpieces : Split.pieces ':' (number n).written = [Decimal.digits n] := by
      refine Eq.trans ?_ (hcut [Decimal.digits n] ?_ (List.cons_ne_nil _ _))
      · rw [List.intercalate_singleton]
        rfl
      · simpa using colon_not_mem_digits n
    rw [ofText?, hpieces]
    exact congrArg (Option.map number) (number?_digits hfirst)
  | range a b =>
    have hpieces : Split.pieces ':' (range a b).written = [Decimal.digits a, Decimal.digits b] := by
      refine Eq.trans ?_ (hcut [Decimal.digits a, Decimal.digits b] ?_ (List.cons_ne_nil _ _))
      · rw [List.intercalate_cons_cons, List.intercalate_singleton, List.append_assoc]
        rfl
      · simp [colon_not_mem_digits]
    have ha : number? (Decimal.digits a) = some a := number?_digits hfirst
    have hb : number? (Decimal.digits b) = some b := number?_digits hlast
    rw [ofText?, hpieces]
    simp [ha, hb]

/-- No text that spells a term is shorter than what is written for it. -/
theorem length_written_le (h : ofText? cs = some t) : t.written.length ≤ cs.length := by
  have hjoined : cs = [':'].intercalate (Split.pieces ':' cs) := by
    rw [Split.pieces_eq_splitOn, List.intercalate_splitOn]
  unfold ofText? at h
  split at h
  · next n hpieces =>
    obtain ⟨m, hm, rfl⟩ := Option.map_eq_some_iff.mp h
    rw [hjoined, hpieces, List.intercalate_singleton]
    exact (number?_eq_some_iff.mp hm).1.length_digits_le
  · next first last hpieces =>
    obtain ⟨a, ha, b, hb, rfl⟩ :
        ∃ a, number? first = some a ∧ ∃ b, number? last = some b ∧ range a b = t := by
      simpa [Option.bind_eq_some_iff] using h
    have hfirst := (number?_eq_some_iff.mp ha).1.length_digits_le
    have hlast := (number?_eq_some_iff.mp hb).1.length_digits_le
    rw [hjoined, hpieces, List.intercalate_cons_cons, List.intercalate_singleton, written]
    simp only [List.length_append, List.length_cons, List.length_nil]
    omega
  · cases h

/-- A term is as long as the digits of either of its ends. -/
theorem length_digits_le (t : Term) : (Decimal.digits t.first).length ≤ t.written.length ∧
    (Decimal.digits t.last).length ≤ t.written.length := by
  cases t with
  | number n => exact ⟨Nat.le_refl _, Nat.le_refl _⟩
  | range a b =>
    simp only [first, last, written, List.length_append, List.length_cons]
    omega

theorem length_written_ofRange_le (r : Nat × Nat) :
    (ofRange r).written.length ≤ (Decimal.digits r.1).length + 1 + (Decimal.digits r.2).length := by
  unfold ofRange
  split
  · simp only [written]
    omega
  · simp only [written, List.length_append, List.length_cons]
    omega

/-- A range is written no longer than a term from end to end. -/
theorem length_written_ofRange (hfirst : t.first = r.1) (hlast : t.last = r.2) :
    (ofRange r).written.length ≤ t.written.length := by
  unfold ofRange
  split
  · rw [← hfirst]
    exact t.length_digits_le.1
  · next hne =>
    cases t with
    | number n => exact absurd (hfirst.symm.trans hlast) hne
    | range a b => rw [← hfirst, ← hlast]; exact Nat.le_refl _

end Term

/-- The terms in a text, with commas between them. -/
def terms? (text : String) : Option (List Term) := (Split.pieces ',' text.toList).mapM Term.ofText?

/-! ### Ranges of ascending numbers -/

/-- The ranges are those of the numbers: they list them in order, none is the wrong way round, and there is
a gap between any two. -/
structure Covers (rs : List (Nat × Nat)) (ns : List Nat) : Prop where
  expand : rs.flatMap (fun r => (Term.ofRange r).numbers) = ns
  proper : ∀ r ∈ rs, r.1 ≤ r.2
  apart : rs.Pairwise fun r s => r.2 + 1 < s.1

section
variable {rs : List (Nat × Nat)} {ns : List Nat} {first last n : Nat}

theorem Covers.mem_iff (h : Covers rs ns) : n ∈ ns ↔ ∃ r ∈ rs, r.1 ≤ n ∧ n ≤ r.2 := by
  simp only [← h.expand, List.mem_flatMap, Term.mem_numbers, Term.first_ofRange, Term.last_ofRange]

/-- Numbers that go on from a range, ascending. -/
theorem rangesFrom_covers (hfirst : first ≤ last) (hns : (last :: ns).Pairwise (· < ·)) :
    Covers (rangesFrom first last ns) (List.range' first (last + 1 - first) ++ ns) := by
  have hnumbers : ∀ a b, (Term.ofRange (a, b)).numbers = List.range' a (b + 1 - a) := by
    intro a b
    rw [Term.numbers, Term.first_ofRange, Term.last_ofRange]
  induction ns generalizing first last with
  | nil =>
    refine ⟨?_, ?_, List.pairwise_singleton _ _⟩
    · rw [rangesFrom, List.flatMap_singleton, hnumbers, List.append_nil]
    · simpa [rangesFrom] using hfirst
  | cons n rest ih =>
    obtain ⟨hlast, hrest⟩ := List.pairwise_cons.mp hns
    have hn : last < n := hlast n List.mem_cons_self
    unfold rangesFrom
    split
    · next hnext =>
      have hlonger : List.range' first (n + 1 - first) = List.range' first (last + 1 - first) ++ [n] := by
        rw [show n + 1 - first = last + 1 - first + 1 by omega, List.range'_concat]
        congr 2
        omega
      have hcovers : Covers (rangesFrom first n rest) _ := ih (by omega) hrest
      rwa [hlonger, List.append_assoc] at hcovers
    · next hgap =>
      have hcovers : Covers (rangesFrom n n rest) _ := ih (Nat.le_refl n) hrest
      rw [show n + 1 - n = 1 by omega] at hcovers
      refine ⟨?_, List.forall_mem_cons.mpr ⟨hfirst, hcovers.proper⟩,
        List.pairwise_cons.mpr ⟨?_, hcovers.apart⟩⟩
      · rw [List.flatMap_cons, hcovers.expand, hnumbers]
        rfl
      · -- a later range starts with one of the numbers that follow
        intro r hr
        have hstart : r.1 ∈ n :: rest := hcovers.mem_iff.mpr ⟨r, hr, Nat.le_refl _, hcovers.proper r hr⟩
        have hle : n ≤ r.1 := by
          obtain heq | hlater := List.mem_cons.mp hstart
          · exact heq.ge
          · exact ((List.pairwise_cons.mp hrest).1 _ hlater).le
        show last + 1 < r.1
        omega

theorem rangesFrom_ne_nil (first last : Nat) (ns : List Nat) : rangesFrom first last ns ≠ [] := by
  induction ns generalizing first last with
  | nil => exact List.cons_ne_nil _ _
  | cons n rest ih =>
    rw [rangesFrom]
    split
    · exact ih first n
    · exact List.cons_ne_nil _ _

theorem ranges_covers (h : ns.Pairwise (· < ·)) : Covers (ranges ns) ns := by
  cases ns with
  | nil => exact ⟨rfl, nofun, .nil⟩
  | cons n rest =>
    have hcovers := rangesFrom_covers (Nat.le_refl n) h
    rwa [show n + 1 - n = 1 by omega] at hcovers

end

/-! ### No fewer terms, and no shorter text -/

section
variable {rs : List (Nat × Nat)} {ns : List Nat} {r : Nat × Nat} {ts : List Term} {t : Term}

/-- The term lies within the range. -/
def Term.Within (t : Term) (r : Nat × Nat) : Prop := r.1 ≤ t.first ∧ t.last ≤ r.2

instance (r : Nat × Nat) : DecidablePred (Term.Within · r) :=
  fun t => inferInstanceAs (Decidable (r.1 ≤ t.first ∧ t.last ≤ r.2))

theorem Covers.apart_of_ne (h : Covers rs ns) {r' : Nat × Nat} (hr : r ∈ rs) (hr' : r' ∈ rs)
    (hne : r ≠ r') : r.2 + 1 < r'.1 ∨ r'.2 + 1 < r.1 := by
  have hsymm : Std.Symm fun r s : Nat × Nat => r.2 + 1 < s.1 ∨ s.2 + 1 < r.1 := ⟨fun _ _ => Or.symm⟩
  have hpairs : rs.Pairwise fun r s => r.2 + 1 < s.1 ∨ s.2 + 1 < r.1 := h.apart.imp Or.inl
  exact hpairs.forall hr hr' hne

/-- A number that follows one of a range is in that range, if it is in any. -/
theorem Covers.succ_le (h : Covers rs ns) (hr : r ∈ rs) {n : Nat} (hn : r.1 ≤ n ∧ n ≤ r.2)
    (hnext : n + 1 ∈ ns) : n + 1 ≤ r.2 := by
  obtain ⟨r', hr', hnext⟩ := h.mem_iff.mp hnext
  by_contra hpast
  have hne : r ≠ r' := fun heq => hpast (heq ▸ hnext.2)
  have hapart := h.apart_of_ne hr hr' hne
  omega

/-- Numbers that are all covered lie within one range, if they follow one another. -/
theorem Covers.within (h : Covers rs ns) (ht : t.first ≤ t.last) (hns : ∀ n ∈ t.numbers, n ∈ ns) :
    ∃ r ∈ rs, t.Within r := by
  simp only [Term.mem_numbers] at hns
  obtain ⟨r, hr, hfirst⟩ := h.mem_iff.mp (hns t.first ⟨Nat.le_refl _, ht⟩)
  have hupto : ∀ k, t.first + k ≤ t.last → t.first + k ≤ r.2 := by
    intro k
    induction k with
    | zero => exact fun _ => hfirst.2
    | succ k ih =>
      intro hk
      have hnext : t.first + k + 1 ∈ ns := hns _ ⟨by omega, hk⟩
      exact h.succ_le (n := t.first + k) hr ⟨by omega, ih (by omega)⟩ hnext
  have hlast := hupto (t.last - t.first) (by omega)
  exact ⟨r, hr, hfirst.1, by omega⟩

theorem add_le_sum {w : Term → Nat} {s t : Term} (hs : s ∈ ts) (ht : t ∈ ts) (hne : s ≠ t) :
    w s + w t ≤ (ts.map w).sum := by
  have hrest : t ∈ ts.erase s := (List.mem_erase_of_ne hne.symm).mpr ht
  have hle : w t ≤ ((ts.erase s).map w).sum :=
    List.single_le_sum (fun _ _ => Nat.zero_le _) _ (List.mem_map_of_mem hrest)
  rw [((List.perm_cons_erase hs).map w).sum_eq, List.map_cons, List.sum_cons]
  omega

/-- A term that has a number of the first range lies within that one. -/
theorem Term.within_head (hlater : ∀ r' ∈ rs, r.2 + 1 < r'.1) (hwithin : ∃ r' ∈ r :: rs, t.Within r')
    {n : Nat} (hn : r.1 ≤ n ∧ n ≤ r.2) (ht : t.first ≤ n ∧ n ≤ t.last) : t.Within r := by
  obtain ⟨r', hr', hin⟩ := hwithin
  obtain rfl | hr' := List.mem_cons.mp hr'
  · exact hin
  · have hgap := hlater r' hr'
    have hstart := hin.1
    omega

section
variable {v : Nat × Nat → Nat} {w : Term → Nat}
  (hwhole : ∀ r t, Term.first t = r.1 → Term.last t = r.2 → v r ≤ w t)
  (hends : ∀ r s t, Term.first s = r.1 → Term.last t = r.2 → v r ≤ w s + w t)
include hwhole hends

/-- Terms that have both ends of a range weigh at least as much as the range, if a term from end to end does
and two terms that end there do. -/
theorem le_sum_of_ends {s t : Term} (hs : s ∈ ts) (ht : t ∈ ts) (hfirst : s.first = r.1)
    (hlast : t.last = r.2) : v r ≤ (ts.map w).sum := by
  by_cases heq : s = t
  · subst heq
    exact (hwhole r s hfirst hlast).trans
      (List.single_le_sum (fun _ _ => Nat.zero_le _) _ (List.mem_map_of_mem hs))
  · exact (hends r s t hfirst hlast).trans (add_le_sum hs ht heq)

/-- Terms that have both ends of each range, and lie within one each, weigh at least as much as all ranges. -/
theorem sum_le_sum_of_ends (hproper : ∀ r ∈ rs, r.1 ≤ r.2) (hapart : rs.Pairwise fun r s => r.2 + 1 < s.1)
    (hwithin : ∀ t ∈ ts, t.first ≤ t.last → ∃ r ∈ rs, t.Within r)
    (hcovered : ∀ r ∈ rs, ∀ n, n = r.1 ∨ n = r.2 → ∃ t ∈ ts, t.first ≤ n ∧ n ≤ t.last) :
    (rs.map v).sum ≤ (ts.map w).sum := by
  induction rs generalizing ts with
  | nil => exact Nat.zero_le _
  | cons r rest ih =>
    obtain ⟨hr, hrest⟩ := List.forall_mem_cons.mp hproper
    obtain ⟨hlater, hapart⟩ := List.pairwise_cons.mp hapart
    -- what lies within the first range is weighed against it, and the others against the rest
    have hhere : v r ≤ ((ts.filter (Term.Within · r)).map w).sum := by
      obtain ⟨s, hs, hsends⟩ := hcovered r List.mem_cons_self r.1 (.inl rfl)
      obtain ⟨t, ht, htends⟩ := hcovered r List.mem_cons_self r.2 (.inr rfl)
      have hsin := Term.within_head hlater (hwithin s hs (by omega)) ⟨Nat.le_refl _, hr⟩ hsends
      have htin := Term.within_head hlater (hwithin t ht (by omega)) ⟨hr, Nat.le_refl _⟩ htends
      exact le_sum_of_ends hwhole hends (List.mem_filter.mpr ⟨hs, decide_eq_true hsin⟩)
        (List.mem_filter.mpr ⟨ht, decide_eq_true htin⟩) (Nat.le_antisymm hsends.1 hsin.1)
        (Nat.le_antisymm htin.2 htends.2)
    have hthere : (rest.map v).sum ≤ ((ts.filter fun t => !decide (t.Within r)).map w).sum := by
      refine ih hrest hapart ?_ ?_
      · intro t ht hne
        obtain ⟨ht, hout⟩ := List.mem_filter.mp ht
        obtain ⟨r', hr', hin⟩ := hwithin t ht hne
        obtain rfl | hr' := List.mem_cons.mp hr'
        · simp [hin] at hout
        · exact ⟨r', hr', hin⟩
      · intro r' hr' n hn
        obtain ⟨t, ht, hfirst, hlast⟩ := hcovered r' (List.mem_cons_of_mem r hr') n hn
        refine ⟨t, List.mem_filter.mpr ⟨ht, ?_⟩, hfirst, hlast⟩
        have hgap := hlater r' hr'
        have hle := hrest r' hr'
        have hout : ¬ t.Within r := fun hin => by
          have hend := hin.2
          omega
        simp [hout]
    rw [List.map_cons, List.sum_cons, ← ((List.filter_append_perm (Term.Within · r) ts).map w).sum_eq,
      List.map_append, List.sum_append]
    exact Nat.add_le_add hhere hthere

end

end

/-! ### Writing in 32 bits -/

/-- A set that is being written: the text so far, whether that is nothing yet, and the range that may still
go on. -/
structure Writing where
  text : String
  isFirst : Bool
  start : UInt32
  last : UInt32

namespace Writing

/-- The number after another, if it has 32 bits. -/
def following? (n : UInt32) : Option UInt32 := if n.toNat + 1 < UInt32.size then some (n + 1) else none

/-- What stands before the next range. -/
def before (w : Writing) : String := if w.isFirst then w.text else w.text ++ ","

/-- The text with the range written. -/
def flush (w : Writing) : String := w.before ++ rangeText (w.start.toNat, w.last.toNat)

/-- One number more: the range goes on with it, or is written. -/
def take? (w : Writing) (n : UInt32) : Option Writing :=
  (following? w.last).map fun next =>
    if n = next then { w with last := n } else { text := w.flush, isFirst := false, start := n, last := n }

theorem take?_of_lt {w : Writing} {n : UInt32} (h : w.last.toNat < n.toNat) : w.take? n =
    some (if n.toNat = w.last.toNat + 1 then { w with last := n }
      else { text := w.flush, isFirst := false, start := n, last := n }) := by
  have hroom : w.last.toNat + 1 < UInt32.size := Nat.lt_of_le_of_lt h n.toNat_lt
  have hnext : (w.last + 1).toNat = w.last.toNat + 1 := by
    rw [UInt32.toNat_add]
    exact Nat.mod_eq_of_lt hroom
  rw [take?, following?, if_pos hroom, Option.map_some, ← hnext]
  simp only [UInt32.toNat_inj]

theorem foldlM_take? (w : Writing) {ns : List UInt32}
    (h : (w.last :: ns).Pairwise fun a b => a.toNat < b.toNat) :
    (ns.foldlM take? w).map flush = some (w.before ++ ",".intercalate
      ((rangesFrom w.start.toNat w.last.toNat (ns.map UInt32.toNat)).map rangeText)) := by
  induction ns generalizing w with
  | nil =>
    rw [List.map_nil, rangesFrom, List.map_singleton, String.intercalate_singleton]
    rfl
  | cons n rest ih =>
    obtain ⟨hlast, hrest⟩ := List.pairwise_cons.mp h
    have htake := take?_of_lt (hlast n List.mem_cons_self)
    rw [List.foldlM_cons, htake, List.map_cons, rangesFrom]
    split
    · exact ih { w with last := n } hrest
    · have hthen := ih { text := w.flush, isFirst := false, start := n, last := n } hrest
      obtain ⟨r, rs, hrs⟩ :=
        List.exists_cons_of_ne_nil (rangesFrom_ne_nil n.toNat n.toNat (rest.map UInt32.toNat))
      rw [List.map_cons, hrs, List.map_cons, String.intercalate_cons_cons, ← List.map_cons, ← hrs]
      refine hthen.trans ?_
      simp [before, flush, String.append_assoc]

end Writing

/-- What is written for ascending numbers, unless a number is asked for that has more than 32 bits. -/
def written? : List UInt32 → Option String
  | [] => some ""
  | n :: rest => (rest.foldlM Writing.take? ⟨"", true, n, n⟩).map Writing.flush

variable {uids : UidSet}

theorem values_ascending (uids : UidSet) : uids.values.Pairwise (· < ·) := by
  refine List.pairwise_map.mpr (uids.ascending.imp fun {a b} h => ?_)
  rw [Uid.compare_def] at h
  exact Nat.compare_eq_lt.mp h

/-- Writing a set never asks for a number of more than 32 bits. -/
theorem written?_toList (uids : UidSet) :
    written? (uids.toList.map fun u => UInt32.ofNat u.value) = some uids.text := by
  have hvalues : (uids.toList.map fun u => UInt32.ofNat u.value).map UInt32.toNat = uids.values := by
    rw [List.map_map]
    exact List.map_congr_left fun u _ => UInt32.toNat_ofNat_of_lt' u.bounded
  have hascending := hvalues ▸ uids.values_ascending
  rw [text, ← hvalues]
  generalize (uids.toList.map fun u => UInt32.ofNat u.value) = ns at hascending
  cases ns with
  | nil => rfl
  | cons n rest =>
    refine (Writing.foldlM_take? ⟨"", true, n, n⟩ (List.pairwise_map.mp hascending)).trans ?_
    simp [Writing.before, ranges]

/-! ### The text of a set -/

theorem values_lt {n : Nat} (h : n ∈ uids.values) : n < UInt32.size := by
  obtain ⟨u, -, rfl⟩ := List.mem_map.mp h
  exact u.bounded

theorem ranges_values_ne_nil (hne : uids.isEmpty = false) : ranges uids.values ≠ [] := by
  obtain ⟨u, hu⟩ := SortedSet.exists_mem hne
  obtain ⟨n, rest, hvalues⟩ := List.exists_cons_of_ne_nil (List.ne_nil_of_mem (List.mem_map_of_mem hu))
  rw [values, hvalues]
  exact rangesFrom_ne_nil n n rest

/-- Between its commas the text has the ranges. -/
theorem pieces_text (hne : uids.isEmpty = false) : Split.pieces ',' uids.text.toList =
    (ranges uids.values).map fun r => (Term.ofRange r).written := by
  have hjoined : uids.text.toList =
      [','].intercalate ((ranges uids.values).map fun r => (Term.ofRange r).written) := by
    rw [text, String.toList_intercalate, List.map_map]
    exact congrArg _ (List.map_congr_left fun r _ => Term.toList_rangeText r)
  rw [hjoined, Split.pieces_eq_splitOn]
  refine List.splitOn_intercalate ',' ?_ (by simpa using ranges_values_ne_nil hne)
  intro piece hpiece
  obtain ⟨r, -, rfl⟩ := List.mem_map.mp hpiece
  exact Term.comma_not_mem_written _

/-- The text is read as its ranges. -/
theorem terms?_text (hne : uids.isEmpty = false) :
    terms? uids.text = some ((ranges uids.values).map Term.ofRange) := by
  have hcovers := ranges_covers uids.values_ascending
  rw [terms?, pieces_text hne, mapM_eq_some_iff, List.forall₂_map_left_iff, List.forall₂_map_right_iff,
    List.forall₂_same]
  intro r hr
  have hproper := hcovers.proper r hr
  have hfirst : r.1 < UInt32.size := values_lt (hcovers.mem_iff.mpr ⟨r, hr, Nat.le_refl _, hproper⟩)
  have hlast : r.2 < UInt32.size := values_lt (hcovers.mem_iff.mpr ⟨r, hr, hproper, Nat.le_refl _⟩)
  exact Term.ofText?_written (by rwa [Term.first_ofRange]) (by rwa [Term.last_ofRange])

/-- What terms weigh that stand for the numbers of a set. -/
theorem sum_le_sum_of_same {v : Nat × Nat → Nat} {w : Term → Nat}
    (hwhole : ∀ r t, Term.first t = r.1 → Term.last t = r.2 → v r ≤ w t)
    (hends : ∀ r s t, Term.first s = r.1 → Term.last t = r.2 → v r ≤ w s + w t) {ts : List Term}
    (hsame : ∀ n, n ∈ ts.flatMap Term.numbers ↔ n ∈ uids.values) :
    ((ranges uids.values).map v).sum ≤ (ts.map w).sum := by
  have hcovers := ranges_covers uids.values_ascending
  refine sum_le_sum_of_ends hwhole hends hcovers.proper hcovers.apart ?_ ?_
  · intro t ht hne
    exact hcovers.within hne fun n hn => (hsame n).mp (List.mem_flatMap.mpr ⟨t, ht, hn⟩)
  · intro r hr n hn
    have hproper := hcovers.proper r hr
    have hin : n ∈ uids.values := hcovers.mem_iff.mpr ⟨r, hr, by omega, by omega⟩
    obtain ⟨t, ht, hnt⟩ := List.mem_flatMap.mp ((hsame n).mpr hin)
    exact ⟨t, ht, Term.mem_numbers.mp hnt⟩

/-- Another text for the same numbers has at least as many terms. -/
theorem length_ranges_le {ts : List Term} (hsame : ∀ n, n ∈ ts.flatMap Term.numbers ↔ n ∈ uids.values) :
    (ranges uids.values).length ≤ ts.length := by
  have hsum := sum_le_sum_of_same (v := fun _ => 1) (w := fun _ => 1) (fun _ _ _ _ => Nat.le_refl _)
    (fun _ _ _ _ _ => Nat.le_succ _) hsame
  simpa using hsum

/-- Another text for the same numbers is at least as long. -/
theorem length_text_le (hne : uids.isEmpty = false) {other : String} {ts : List Term}
    (hts : terms? other = some ts) (hsame : ∀ n, n ∈ ts.flatMap Term.numbers ↔ n ∈ uids.values) :
    uids.text.length ≤ other.length := by
  have hours := Split.sum_length_pieces ',' uids.text.toList
  have htheirs := Split.sum_length_pieces ',' other.toList
  rw [pieces_text hne, List.map_map] at hours
  have hsum : ((ranges uids.values).map fun r => (Term.ofRange r).written.length + 1).sum ≤
      (ts.map fun t => t.written.length + 1).sum := by
    refine sum_le_sum_of_same (fun r t hfirst hlast => ?_) (fun r s t hfirst hlast => ?_) hsame
    · exact Nat.succ_le_succ (Term.length_written_ofRange hfirst hlast)
    · have hends := Term.length_written_ofRange_le r
      have hs := s.length_digits_le.1
      have ht := t.length_digits_le.2
      rw [hfirst] at hs
      rw [hlast] at ht
      omega
  have hpieces : (ts.map fun t => t.written.length + 1).sum ≤
      ((Split.pieces ',' other.toList).map fun piece => piece.length + 1).sum := by
    refine List.Forall₂.sum_le_sum ?_
    rw [List.forall₂_map_left_iff, List.forall₂_map_right_iff]
    refine (mapM_eq_some_iff.mp hts).flip.imp fun t piece h => ?_
    exact Nat.succ_le_succ (Term.length_written_le h)
  have hlength : uids.text.toList.length + 1 ≤ other.toList.length + 1 := by
    rw [← hours, ← htheirs]
    exact hsum.trans hpieces
  exact Nat.le_of_succ_le_succ hlength

/-- The text of a set is read back as the set: its terms list the members in order, in each `a:b` the first
number is the smaller one, and between any two terms a number is left out, so that they ascend and cannot be
joined. No text for the same numbers has fewer terms or is shorter. Written in 32 bits the text is the same,
and no number is asked for that does not exist. -/
theorem text_expands (uids : UidSet) (hne : uids.isEmpty = false) :
    (∃ ts, terms? uids.text = some ts ∧ ts.flatMap Term.numbers = uids.values ∧
      (∀ a b, .range a b ∈ ts → a < b) ∧
      ts.Pairwise (fun s t => s.first ≤ s.last ∧ s.last + 1 < t.first ∧ t.first ≤ t.last) ∧
      ∀ other ts', terms? other = some ts' →
        (∀ n, n ∈ ts'.flatMap Term.numbers ↔ n ∈ uids.values) →
          ts.length ≤ ts'.length ∧ uids.text.length ≤ other.length) ∧
    written? (uids.toList.map fun u => UInt32.ofNat u.value) = some uids.text := by
  have hcovers := ranges_covers uids.values_ascending
  refine ⟨⟨_, terms?_text hne, ?_, ?_, ?_, ?_⟩, written?_toList uids⟩
  · rw [List.flatMap_map]
    exact hcovers.expand
  · intro a b hab
    obtain ⟨r, hr, hrange⟩ := List.mem_map.mp hab
    have hproper := hcovers.proper r hr
    unfold Term.ofRange at hrange
    split at hrange
    · cases hrange
    · next hne =>
      obtain ⟨rfl, rfl⟩ := Term.range.inj hrange
      omega
  · refine List.pairwise_map.mpr (hcovers.apart.imp_of_mem fun {r s} hr hs hapart => ?_)
    simp only [Term.first_ofRange, Term.last_ofRange]
    exact ⟨hcovers.proper r hr, hapart, hcovers.proper s hs⟩
  · intro other ts' hts' hsame
    rw [List.length_map]
    exact ⟨length_ranges_le hsame, length_text_le hne hts' hsame⟩

/-- Some identifiers, with the greatest two. -/
def uptoGreatest : UidSet := .ofList ([9, 1, 3, 4294967294, 2, 4294967295].filterMap Uid.ofNat?)

/-- The greatest identifier ends a range like any other. -/
theorem text_expands_greatest :
    uptoGreatest.text = "1:3,9,4294967294:4294967295" ∧
    (∃ ts, terms? "1:3,9,4294967294:4294967295" = some ts ∧
      ts.flatMap Term.numbers = [1, 2, 3, 9, 4294967294, 4294967295]) ∧
    written? [1, 2, 3, 9, 4294967294, 4294967295] = some "1:3,9,4294967294:4294967295" := by
  have htext : uptoGreatest.text = "1:3,9,4294967294:4294967295" := by decide +kernel
  obtain ⟨⟨ts, hts, hnumbers, -⟩, hwritten⟩ := text_expands uptoGreatest (by decide +kernel)
  rw [htext] at hts hwritten
  exact ⟨htext, ⟨ts, hts, hnumbers⟩, hwritten⟩

end Mailroom.UidSet
