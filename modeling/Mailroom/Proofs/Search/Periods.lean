import Mailroom.Proofs.Text.Numerals
import Mailroom.Search.DateRange

/-! The days that a date specifier names.

A `Period` is a year, a month or a day by its numbers, whether the calendar has it or not. A text that
names one is read as the range from its first day on, before the first day of the period that follows it
(`ofNumbers?_numbers`), and these are the days that lie in it (`within_iff`). Nothing else is read, and
nothing that is named is refused but for the ends of the calendar (`ofText_names_days`). -/
namespace Mailroom

theorem Date.day_le (d : Date) : d.day ≤ Date.daysIn d.year d.month := by
  have h := d.valid
  simp only [Date.exists?, Bool.and_eq_true, decide_eq_true_eq] at h
  exact h.2

theorem Date.one_le_daysIn (year : Int) (month : Nat) : 1 ≤ daysIn year month := by
  unfold daysIn
  split <;> split <;> decide

/-- Every month of every year of the calendar has a first day. -/
theorem Date.ofNumbers?_first {year : Int} {month : Nat} (hyear : firstYear ≤ year ∧ year ≤ lastYear)
    (hmonth : 1 ≤ month ∧ month ≤ 12) : ∃ d, ofNumbers? year month 1 = some d := by
  have h : exists? year month 1 = true := by simp [exists?, hyear, hmonth, one_le_daysIn]
  exact ⟨_, dif_pos h⟩

/-- A year, a month or a day, by its numbers. -/
inductive Period
  | year (year : Nat)
  | month (year month : Nat)
  | day (year month day : Nat)
  deriving DecidableEq

namespace Period

/-- The numbers of the period, from the year on. -/
def numbers : Period → List Nat
  | year y => [y]
  | month y m => [y, m]
  | day y m n => [y, m, n]

/-- The date lies in the period. -/
def Contains : Period → Date → Prop
  | year y, d => d.year = y
  | month y m, d => d.year = y ∧ d.month = m
  | day y m n, d => d.year = y ∧ d.month = m ∧ d.day = n

/-- The year, month or day that follows. -/
def following : Period → Period
  | year y => year (y + 1)
  | month y m => if m < 12 then month y (m + 1) else month (y + 1) 1
  | day y m n =>
    if n < Date.daysIn y m then day y m (n + 1) else if m < 12 then day y (m + 1) 1 else day (y + 1) 1 1

/-- The day on which the period starts, if the calendar has it. -/
def first? : Period → Option Date
  | year y => Date.ofNumbers? y 1 1
  | month y m => Date.ofNumbers? y m 1
  | day y m n => Date.ofNumbers? y m n

/-- The text names the period: between blanks it is the numbers of the period, each of 32 bits and with a
plus sign or not, with dashes between them. -/
def Named (p : Period) (text : String) : Prop :=
  ∃ before pieces after, text.toList = before ++ ['-'].intercalate pieces ++ after ∧
    (∀ c ∈ before ++ after, Blank.isBlank c = true) ∧
    List.Forall₂ (fun piece n => Decimal.Spells piece n ∧ n < UInt32.size) pieces p.numbers

variable {p q : Period} {text : String} {since before : Date}

theorem numbers_inj (h : p.numbers = q.numbers) : p = q := by
  cases p <;> cases q <;> simp_all [numbers]

theorem numbers_ne_nil (p : Period) : p.numbers ≠ [] := by
  cases p <;> exact List.cons_ne_nil _ _

/-! ### The days of a period -/

/-- The calendar has a period if it has the first day of it. -/
theorem exists_contains_iff : (∃ d, p.Contains d) ↔ ∃ d, p.first? = some d := by
  constructor
  · intro ⟨d, hd⟩
    have hbounds := d.bounds
    cases p with
    | year y =>
      have hyear : d.year = y := hd
      rw [hyear] at hbounds
      exact Date.ofNumbers?_first ⟨hbounds.1, hbounds.2.1⟩ (by decide)
    | month y m =>
      obtain ⟨hyear, hmonth⟩ := hd
      rw [hyear, hmonth] at hbounds
      exact Date.ofNumbers?_first ⟨hbounds.1, hbounds.2.1⟩ ⟨hbounds.2.2.1, hbounds.2.2.2.1⟩
    | day y m n => exact ⟨d, Date.ofNumbers?_eq_some.mpr hd⟩
  · intro ⟨d, hd⟩
    refine ⟨d, ?_⟩
    cases p with
    | year y => exact (Date.ofNumbers?_eq_some.mp hd).1
    | month y m => exact ⟨(Date.ofNumbers?_eq_some.mp hd).1, (Date.ofNumbers?_eq_some.mp hd).2.1⟩
    | day y m n => exact Date.ofNumbers?_eq_some.mp hd

/-- The days of a period are those from its first day on, before the first day of the period that
follows. -/
theorem within_iff (hsince : p.first? = some since) (hbefore : p.following.first? = some before) (d : Date) :
    since ≤ d ∧ d < before ↔ p.Contains d := by
  have hd := d.bounds
  have hs := since.bounds
  show since.rank ≤ d.rank ∧ d.rank < before.rank ↔ _
  simp only [Date.rank]
  cases p with
  | year y =>
    obtain ⟨hy, hm, hn⟩ := Date.ofNumbers?_eq_some.mp hsince
    obtain ⟨hy', hm', hn'⟩ := Date.ofNumbers?_eq_some.mp hbefore
    show _ ↔ d.year = y
    omega
  | month y m =>
    obtain ⟨hy, hm, hn⟩ := Date.ofNumbers?_eq_some.mp hsince
    have hnext : before.year * 12 + before.month = y * 12 + m + 1 ∧ 1 ≤ before.month ∧ before.month ≤ 12 ∧
        before.day = 1 := by
      simp only [following] at hbefore
      split at hbefore
      · obtain ⟨hy', hm', hn'⟩ := Date.ofNumbers?_eq_some.mp hbefore
        omega
      · obtain ⟨hy', hm', hn'⟩ := Date.ofNumbers?_eq_some.mp hbefore
        omega
    show _ ↔ d.year = y ∧ d.month = m
    omega
  | day y m n =>
    obtain ⟨hy, hm, hn⟩ := Date.ofNumbers?_eq_some.mp hsince
    show _ ↔ d.year = y ∧ d.month = m ∧ d.day = n
    -- The last day of a month is followed by a gap in the ranks, in which there is no date.
    have hlast : d.year = y → d.month = m → d.day ≤ Date.daysIn y m := by
      intro hyear hmonth
      rw [← hyear, ← hmonth]
      exact d.day_le
    simp only [following] at hbefore
    split at hbefore
    · obtain ⟨hy', hm', hn'⟩ := Date.ofNumbers?_eq_some.mp hbefore
      omega
    · split at hbefore
      · obtain ⟨hy', hm', hn'⟩ := Date.ofNumbers?_eq_some.mp hbefore
        omega
      · obtain ⟨hy', hm', hn'⟩ := Date.ofNumbers?_eq_some.mp hbefore
        omega

/-- A period starts before the one that follows. -/
theorem first_lt (hsince : p.first? = some since) (hbefore : p.following.first? = some before) :
    since < before := by
  obtain ⟨d, hd⟩ := exists_contains_iff.mpr ⟨since, hsince⟩
  obtain ⟨hfrom, hto⟩ := (within_iff hsince hbefore d).mpr hd
  exact Int.lt_of_le_of_lt hfrom hto

/-! ### Reading a period -/

theorem addMonths?_first {year : Int} {month : Nat} (h : Date.ofNumbers? year month 1 = some since)
    (months : Nat) : since.addMonths? months =
      Date.ofNumbers? (year + ((month - 1 + months) / 12 : Nat)) ((month - 1 + months) % 12 + 1) 1 := by
  obtain ⟨rfl, rfl, hday⟩ := Date.ofNumbers?_eq_some.mp h
  rw [Date.addMonths?, hday, Nat.min_eq_left (Date.one_le_daysIn _ _)]

/-- The numbers of a period are read as the range from its start to that of the period that follows. -/
theorem ofNumbers?_numbers (p : Period) : DateRange.ofNumbers? p.numbers =
    p.first?.bind fun since => p.following.first?.map fun before => ⟨since, before⟩ := by
  cases p with
  | year y =>
    show ((Date.ofNumbers? y 1 1).bind fun since => DateRange.months? since 12) = _
    refine Option.bind_congr fun since hsince => ?_
    rw [DateRange.months?, addMonths?_first hsince]
    rfl
  | month y m =>
    show ((Date.ofNumbers? y m 1).bind fun since => DateRange.months? since 1) = _
    refine Option.bind_congr fun since hsince => ?_
    have hm := since.bounds
    rw [(Date.ofNumbers?_eq_some.mp hsince).2.1] at hm
    rw [DateRange.months?, addMonths?_first hsince, Nat.sub_add_cancel hm.2.2.1, following]
    split
    · next hlt => rw [Nat.div_eq_of_lt hlt, Nat.mod_eq_of_lt hlt, first?, Int.natCast_zero, Int.add_zero]
    · next hge =>
      obtain rfl : m = 12 := by omega
      rfl
  | day y m n =>
    show ((Date.ofNumbers? y m n).bind fun since =>
      since.next?.bind fun before => some (DateRange.mk since before)) = _
    refine Option.bind_congr fun since hsince => ?_
    obtain ⟨hy, hm, hn⟩ := Date.ofNumbers?_eq_some.mp hsince
    have hnext : since.next? = (day y m n).following.first? := by
      rw [Date.next?, hy, hm, hn, following]
      split
      · rfl
      · split <;> rfl
    rw [hnext]
    exact Option.map_eq_bind.symm

/-- Numbers that are read as a range are those of a period. -/
theorem exists_numbers {ns : List Nat} {range : DateRange} (h : DateRange.ofNumbers? ns = some range) :
    ∃ p : Period, ns = p.numbers := by
  match ns with
  | [] => cases h
  | [y] => exact ⟨year y, rfl⟩
  | [y, m] => exact ⟨month y m, rfl⟩
  | [y, m, n] => exact ⟨day y m n, rfl⟩
  | _ :: _ :: _ :: _ :: _ => cases h

/-- A text that names a period is read as the numbers of the period, and no other text is. -/
theorem named_iff : p.Named text ↔ DateRange.numbers? text = some p.numbers := by
  have hread : DateRange.numbers? text = some p.numbers ↔
      List.Forall₂ (fun piece n => Decimal.Spells piece n ∧ n < UInt32.size)
        ((Blank.trim text).toList.splitOn '-') p.numbers := by
    simp only [DateRange.numbers?, mapM_eq_some_iff, Split.pieces_eq_splitOn, Decimal.unsigned?_eq_some_iff,
      String.toList_ofList]
  rw [hread]
  constructor
  · intro ⟨before, pieces, after, htext, hblank, hpieces⟩
    have hspelled : ∀ piece ∈ pieces, ∃ n, Decimal.Spells piece n :=
      ((List.forall₂_and_left pieces p.numbers).mp (hpieces.imp fun piece n h => ⟨⟨n, h.1⟩, h⟩)).1
    have hcut : (['-'].intercalate pieces).splitOn '-' = pieces := by
      refine List.splitOn_intercalate '-' (fun piece hpiece => ?_) ?_
      · obtain ⟨n, hn⟩ := hspelled piece hpiece
        exact hn.no_dash
      · intro hnil
        rw [hnil, List.forall₂_nil_left_iff] at hpieces
        exact p.numbers_ne_nil hpieces
    have hne : ['-'].intercalate pieces ≠ [] := by
      intro hnil
      rw [hnil] at hcut
      obtain ⟨n, hn⟩ := hspelled [] (by rw [← hcut]; exact List.mem_singleton_self [])
      exact hn.ne_nil rfl
    rwa [Blank.trim_around htext hblank hne (Decimal.not_blank_of_dashed hspelled), hcut]
  · intro hpieces
    obtain ⟨before, after, htext, hblank⟩ := Blank.trim_between text
    exact ⟨before, _, after, by rw [List.intercalate_splitOn, htext], hblank, hpieces⟩

/-- What a text is read as: the range of the period that it names. -/
theorem ofText_eq_ok_iff {range : DateRange} : DateRange.ofText text = .ok range ↔
    ∃ p : Period, p.Named text ∧ p.first? = some range.since ∧ p.following.first? = some range.before := by
  have hread : DateRange.ofText text = .ok range ↔
      (DateRange.numbers? text).bind DateRange.ofNumbers? = some range := by
    unfold DateRange.ofText
    generalize (DateRange.numbers? text).bind DateRange.ofNumbers? = read
    cases read with
    | none => exact iff_of_false nofun nofun
    | some read =>
      exact ⟨fun h => congrArg some (Except.ok.inj h), fun h => congrArg Except.ok (Option.some.inj h)⟩
  have hrange : ∀ p : Period, DateRange.ofNumbers? p.numbers = some range ↔
      p.first? = some range.since ∧ p.following.first? = some range.before := by
    intro p
    rw [ofNumbers?_numbers]
    obtain ⟨since, before⟩ := range
    rcases p.first? with _ | first <;> rcases p.following.first? with _ | next <;> simp
  rw [hread, Option.bind_eq_some_iff]
  constructor
  · intro ⟨ns, hns, hrange'⟩
    obtain ⟨p, rfl⟩ := exists_numbers hrange'
    exact ⟨p, named_iff.mpr hns, (hrange p).mp hrange'⟩
  · intro ⟨p, hnamed, hends⟩
    exact ⟨p.numbers, named_iff.mp hnamed, (hrange p).mpr hends⟩

/-- A text is a date specifier if it names a year, month or day of the calendar, and the one that follows
starts in the calendar as well. Then the days from its first one on, before the last one that is left out,
are those that it names, and there are such days. Any other text is refused as one that names no period. -/
theorem ofText_names_days (text : String) :
    ((∃ range, DateRange.ofText text = .ok range) ↔
      ∃ p : Period, p.Named text ∧ (∃ d, p.Contains d) ∧ ∃ d, p.following.first? = some d) ∧
    (∀ range (p : Period), DateRange.ofText text = .ok range → p.Named text →
      (∀ d, range.since ≤ d ∧ d < range.before ↔ p.Contains d) ∧ range.since < range.before) ∧
    ((∀ range, DateRange.ofText text ≠ .ok range) → DateRange.ofText text = .error (.notPeriod text)) := by
  refine ⟨⟨?_, ?_⟩, ?_, ?_⟩
  · intro ⟨range, hrange⟩
    obtain ⟨p, hnamed, hsince, hbefore⟩ := ofText_eq_ok_iff.mp hrange
    exact ⟨p, hnamed, exists_contains_iff.mpr ⟨_, hsince⟩, _, hbefore⟩
  · intro ⟨p, hnamed, hexists, before, hbefore⟩
    obtain ⟨since, hsince⟩ := exists_contains_iff.mp hexists
    exact ⟨⟨since, before⟩, ofText_eq_ok_iff.mpr ⟨p, hnamed, hsince, hbefore⟩⟩
  · intro range p hrange hp
    obtain ⟨q, hq, hsince, hbefore⟩ := ofText_eq_ok_iff.mp hrange
    have hsame : q.numbers = p.numbers := Option.some.inj ((named_iff.mp hq).symm.trans (named_iff.mp hp))
    rw [numbers_inj hsame] at hsince hbefore
    exact ⟨within_iff hsince hbefore, first_lt hsince hbefore⟩
  · intro hnone
    unfold DateRange.ofText at hnone ⊢
    generalize (DateRange.numbers? text).bind DateRange.ofNumbers? = read at hnone ⊢
    cases read with
    | none => rfl
    | some range => exact absurd rfl (hnone range)

/-- The day that a leap year has more belongs to its February. The last year of the calendar is refused. -/
theorem ofText_names_days_february :
    (∃ range, DateRange.ofText " +2024-02" = .ok range ∧
      range.since ≤ ⟨2024, 2, 29, rfl⟩ ∧ (⟨2024, 2, 29, rfl⟩ : Date) < range.before) ∧
    DateRange.ofText "262142" = .error (.notPeriod "262142") := by
  constructor
  · have hnamed : (month 2024 2).Named " +2024-02" := named_iff.mpr (by decide +kernel)
    have hfebruary : ∃ range, DateRange.ofText " +2024-02" = .ok range := by
      refine (ofText_names_days " +2024-02").1.mpr ⟨month 2024 2, hnamed, ⟨⟨2024, 2, 29, rfl⟩, rfl, rfl⟩, ?_⟩
      exact ⟨⟨2024, 3, 1, rfl⟩, Date.ofNumbers?_eq_some.mpr ⟨rfl, rfl, rfl⟩⟩
    obtain ⟨range, hrange⟩ := hfebruary
    have hdays := ((ofText_names_days " +2024-02").2.1 range (month 2024 2) hrange hnamed).1
    exact ⟨range, hrange, (hdays ⟨2024, 2, 29, rfl⟩).mpr ⟨rfl, rfl⟩⟩
  · refine (ofText_names_days "262142").2.2 fun range hrange => ?_
    obtain ⟨p, hnamed, -, d, hd⟩ := (ofText_names_days "262142").1.mp ⟨range, hrange⟩
    have hyear : p = year 262142 := numbers_inj <| Option.some.inj <| by
      rw [← named_iff.mp hnamed]
      decide +kernel
    rw [hyear] at hd
    exact absurd (Date.ofNumbers?_eq_some.mp hd) (by have := d.bounds; simp only [Date.lastYear] at this; omega)

end Period

end Mailroom
