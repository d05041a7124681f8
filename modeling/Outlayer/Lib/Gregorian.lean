import Outlayer.Lib.Calendar
import Mathlib.Order.Monotone.Basic
import Mathlib.Order.Lattice

/-!
# `Lib.Gregorian` — the calendar, one day after the other

A date is a day of a month of a year, within the month's length; the calendar is what the next day is. The name that
one division finds for a day that was counted (`Calendar.civil`) is the date that many days on (`civil_dateAfter`), and
the count is found again by the usual formula (`Date.count_dateAfter`).
-/

namespace Gregorian
open Calendar

/-! ## Dates -/

/-- A year with a leap day. -/
def isLeap (year : Nat) : Bool := year % 4 == 0 && (year % 100 != 0 || year % 400 == 0)

/-- The days of a month. -/
def monthLength (year month : Nat) : Nat :=
  match month with
  | 2             => if isLeap year then 29 else 28
  | 4 | 6 | 9 | 11 => 30
  | _             => 31

/-- A date that the calendar has. -/
structure Date where
  year : Nat
  month : Nat
  day : Nat
  month_pos : 1 ≤ month
  month_le : month ≤ 12
  day_pos : 1 ≤ day
  day_le : day ≤ monthLength year month
  deriving DecidableEq

@[ext] theorem Date.ext' {a b : Date} (hy : a.year = b.year) (hm : a.month = b.month) (hd : a.day = b.day) :
    a = b := by
  obtain ⟨_, _, _, _, _, _, _⟩ := a
  subst hy hm hd
  rfl

theorem monthLength_pos (year month : Nat) : 1 ≤ monthLength year month := by
  unfold monthLength
  split
  · split <;> decide
  all_goals decide

/-- The next day: of the month, else of the next month, else of the next year. -/
def Date.next (d : Date) : Date :=
  if hday : d.day < monthLength d.year d.month then
    { d with day := d.day + 1, day_pos := by omega, day_le := hday }
  else if hmonth : d.month < 12 then
    { year := d.year, month := d.month + 1, day := 1, month_pos := by omega, month_le := hmonth
      day_pos := Nat.le_refl 1, day_le := monthLength_pos _ _ }
  else
    { year := d.year + 1, month := 1, day := 1, month_pos := Nat.le_refl 1, month_le := by decide
      day_pos := Nat.le_refl 1, day_le := monthLength_pos _ _ }

/-- What the next day is, field by field. -/
theorem Date.next_cases (d : Date) :
    (d.next.year = d.year ∧ d.next.month = d.month ∧ d.next.day = d.day + 1) ∨
    (d.day = monthLength d.year d.month ∧ d.month < 12 ∧
      d.next.year = d.year ∧ d.next.month = d.month + 1 ∧ d.next.day = 1) ∨
    (d.day = monthLength d.year d.month ∧ d.month = 12 ∧
      d.next.year = d.year + 1 ∧ d.next.month = 1 ∧ d.next.day = 1) := by
  have hle := d.month_le
  have hlen := d.day_le
  unfold Date.next
  split
  · exact Or.inl ⟨rfl, rfl, rfl⟩
  · next hday =>
      right
      split
      · next hmonth => exact Or.inl ⟨by omega, hmonth, rfl, rfl, rfl⟩
      · next hmonth => exact Or.inr ⟨by omega, by omega, rfl, rfl, rfl⟩

/-! ## The count of days -/

/-- The number of a month in a year that begins in March. -/
def monthIndex (month : Nat) : Nat := if 2 < month then month - 3 else month + 9

/-- The year a date lies in when years begin in March. -/
def Date.marchYear (d : Date) : Nat := if d.month ≤ 2 then d.year - 1 else d.year

/-- The days of that year before the date. -/
def Date.dayOfYear (d : Date) : Nat := (153 * monthIndex d.month + 2) / 5 + d.day - 1

/-- The days before a year that begins in March, from the first of March of the year 0. -/
def yearCount (year : Nat) : Nat := year / 400 * 146097 + yearStart (year % 400)

/-- The days from the first of March of the year 0. -/
def Date.count (d : Date) : Nat := yearCount d.marchYear + d.dayOfYear

/-- The year of an era is found by the division wherever in it the day lies. -/
theorem yearOfEra_eq {y doe : Nat} (hy : y < 400) (hfrom : yearStart y ≤ doe)
    (hto : doe < yearStart (y + 1) ∨ y = 399 ∧ doe < 146097) : corrected doe / 365 = y := by
  have hlow := corrected_mono hfrom
  have hstart := (corrected_yearStart y hy).1
  rcases hto with hto | ⟨rfl, hto⟩
  · by_cases hlast : y = 399
    · have hmono : corrected doe ≤ corrected 146096 := by
        apply corrected_mono
        rw [hlast, show yearStart (399 + 1) = 146096 from rfl] at hto
        omega
      rw [show corrected 146096 = 145999 by decide] at hmono
      omega
    · have hend := (corrected_yearStart (y + 1) (by omega)).2 (by omega)
      have hhigh : corrected doe ≤ corrected (yearStart (y + 1) - 1) := corrected_mono (by omega)
      omega
  · have hmono : corrected doe ≤ corrected 146096 := corrected_mono (by omega)
    rw [show corrected 146096 = 145999 by decide] at hmono
    omega

/-- The month and the day of the month are found by the division, and the leap day is the last day of all. -/
theorem Date.dayOfYear_spec (d : Date) :
    (5 * d.dayOfYear + 2) / 153 = monthIndex d.month ∧
      d.dayOfYear - (153 * monthIndex d.month + 2) / 5 + 1 = d.day ∧
      (d.dayOfYear < 365 ∨ d.dayOfYear = 365 ∧ d.month = 2 ∧ isLeap d.year = true) := by
  obtain ⟨year, month, day, hpos, hle, hday, hlen⟩ := d
  have hcases : month = 1 ∨ month = 2 ∨ month = 3 ∨ month = 4 ∨ month = 5 ∨ month = 6 ∨ month = 7 ∨ month = 8 ∨
      month = 9 ∨ month = 10 ∨ month = 11 ∨ month = 12 := by omega
  rcases hcases with rfl | rfl | rfl | rfl | rfl | rfl | rfl | rfl | rfl | rfl | rfl | rfl
  case inr.inl =>
    have hindex : monthIndex 2 = 11 := rfl
    simp only [Date.dayOfYear, monthLength, hindex] at hlen ⊢
    cases hleap : isLeap year with
    | true =>
        rw [hleap, if_pos rfl] at hlen
        refine ⟨by omega, by omega, ?_⟩
        by_cases hlast : day = 29
        · exact Or.inr ⟨by omega, trivial, rfl⟩
        · exact Or.inl (by omega)
    | false =>
        rw [hleap, if_neg (by decide)] at hlen
        exact ⟨by omega, by omega, Or.inl (by omega)⟩
  all_goals
    simp only [Date.dayOfYear, monthLength, monthIndex, Nat.reduceLT, ↓reduceIte, Nat.reduceSub, Nat.reduceAdd]
      at hlen ⊢
    exact ⟨by omega, by omega, Or.inl (by omega)⟩

theorem isLeap_iff {year : Nat} : isLeap year = true ↔ year % 4 = 0 ∧ (year % 100 ≠ 0 ∨ year % 400 = 0) := by
  simp [isLeap]

/-- **The count of a date names the date.** -/
theorem Date.civil_count (d : Date) (hyear : 0 < d.year) : civil d.count = (d.year, d.month, d.day) := by
  obtain ⟨hmp, hd, hlen⟩ := d.dayOfYear_spec
  have hmonth := d.month_le
  have hpos := d.month_pos
  have hback : (if monthIndex d.month < 10 then monthIndex d.month + 3 else monthIndex d.month - 9) = d.month := by
    unfold monthIndex
    split <;> split <;> omega
  have hmarch : d.marchYear = if d.month ≤ 2 then d.year - 1 else d.year := rfl
  have hyoe : d.marchYear % 400 < 400 := Nat.mod_lt _ (by decide)
  have hdoe : yearStart (d.marchYear % 400) + d.dayOfYear < 146097 := by
    unfold yearStart
    omega
  -- the day lies before the next year: the leap day is the last one of the year before its own
  have hend : yearStart (d.marchYear % 400) + d.dayOfYear < yearStart (d.marchYear % 400 + 1) ∨
      d.marchYear % 400 = 399 ∧ yearStart (d.marchYear % 400) + d.dayOfYear < 146097 := by
    by_cases hlast : d.marchYear % 400 = 399
    · exact Or.inr ⟨hlast, hdoe⟩
    · left
      rcases hlen with hlt | ⟨heq, hfeb, hleap⟩
      · unfold yearStart
        omega
      · obtain ⟨hfour, hcentury⟩ := isLeap_iff.mp hleap
        rw [if_pos (by omega)] at hmarch
        unfold yearStart
        omega
  have hera : d.count / 146097 = d.marchYear / 400 := by
    unfold Date.count yearCount
    omega
  have hrem : d.count % 146097 = yearStart (d.marchYear % 400) + d.dayOfYear := by
    unfold Date.count yearCount
    omega
  simp only [civil]
  rw [hera, hrem, yearOfEra_eq hyoe (Nat.le_add_right _ _) hend, Nat.add_sub_cancel_left, hmp, hd, hback]
  refine Prod.ext ?_ rfl
  show d.marchYear % 400 + d.marchYear / 400 * 400 + (if d.month ≤ 2 then 1 else 0) = d.year
  split at hmarch <;> split <;> omega

/-! ## The calendar -/

/-- A leap year is a day longer. -/
theorem yearCount_succ (year : Nat) :
    yearCount (year + 1) = yearCount year + (if isLeap (year + 1) then 366 else 365) := by
  have hleap : isLeap (year + 1) = true ↔
      (year + 1) % 4 = 0 ∧ ((year + 1) % 100 ≠ 0 ∨ (year + 1) % 400 = 0) := isLeap_iff
  unfold yearCount yearStart
  cases h : isLeap (year + 1) with
  | true =>
      obtain ⟨hfour, hcentury⟩ := hleap.mp h
      rw [if_pos rfl]
      omega
  | false =>
      have hno : ¬ ((year + 1) % 4 = 0 ∧ ((year + 1) % 100 ≠ 0 ∨ (year + 1) % 400 = 0)) := fun hyes => by
        rw [hleap.mpr hyes] at h
        cases h
      rw [if_neg (by decide)]
      omega

theorem yearCount_mono {y y' : Nat} (h : y ≤ y') : yearCount y ≤ yearCount y' :=
  monotone_nat_of_le_succ (fun year => Nat.le.intro (yearCount_succ year).symm) h

/-- The next day is the next of the year, or the first of the next year after the last one. -/
theorem Date.next_in_year (d : Date) (hyear : 0 < d.year) :
    (d.next.marchYear = d.marchYear ∧ d.next.dayOfYear = d.dayOfYear + 1) ∨
    (d.next.marchYear = d.marchYear + 1 ∧ d.next.dayOfYear = 0 ∧
      d.dayOfYear + 1 = if isLeap (d.marchYear + 1) then 366 else 365) := by
  have hpos := d.month_pos
  have hfirst : 1 ≤ d.day := d.day_pos
  unfold Date.marchYear Date.dayOfYear
  rcases d.next_cases with ⟨hy, hm, hd⟩ | ⟨hlast, hmonth, hy, hm, hd⟩ | ⟨hlast, hmonth, hy, hm, hd⟩
  · rw [hy, hm, hd]
    exact Or.inl ⟨rfl, by omega⟩
  · rw [hy, hm, hd]
    generalize d.month = month at *
    generalize d.year = year at *
    have hcases : month = 1 ∨ month = 2 ∨ month = 3 ∨ month = 4 ∨ month = 5 ∨ month = 6 ∨ month = 7 ∨ month = 8 ∨
        month = 9 ∨ month = 10 ∨ month = 11 := by omega
    rcases hcases with rfl | rfl | rfl | rfl | rfl | rfl | rfl | rfl | rfl | rfl | rfl
    case inr.inl =>
      -- the end of February is the end of the year
      right
      have hindex : monthIndex 2 = 11 := rfl
      have hback : year - 1 + 1 = year := Nat.sub_add_cancel hyear
      simp only [monthLength] at hlast
      rw [hindex, if_neg (by decide), if_pos (by decide), hback, hlast]
      refine ⟨rfl, rfl, ?_⟩
      split <;> rfl
    all_goals
      left
      simp only [monthLength] at hlast
      rw [hlast]
      exact ⟨rfl, rfl⟩
  · rw [hy, hm, hd, hmonth]
    rw [hmonth] at hlast
    rw [show d.day = 31 from hlast]
    exact Or.inl ⟨by simp, rfl⟩

/-- The next day is counted next. -/
theorem Date.count_next (d : Date) (hyear : 0 < d.year) : d.next.count = d.count + 1 := by
  unfold Date.count
  rcases d.next_in_year hyear with ⟨hsame, hnext⟩ | ⟨hyear, hfirst, hlast⟩
  · rw [hsame, hnext, Nat.add_assoc]
  · rw [hyear, hfirst, yearCount_succ, ← hlast]
    omega

/-- The first of January 1970. -/
def epoch : Date where
  year := 1970
  month := 1
  day := 1
  month_pos := by decide
  month_le := by decide
  day_pos := by decide
  day_le := by decide

theorem epoch_count : epoch.count = 719468 := by
  have hyear : yearCount 1969 = 719162 := by decide +kernel
  show yearCount 1969 + epoch.dayOfYear = 719468
  rw [hyear, show epoch.dayOfYear = 306 from rfl]

/-- The date that many days after the first of January 1970. -/
def dateAfter (days : Nat) : Date := Date.next^[days] epoch

theorem dateAfter_zero : dateAfter 0 = epoch := rfl

theorem dateAfter_succ (days : Nat) : dateAfter (days + 1) = (dateAfter days).next :=
  Function.iterate_succ_apply' _ _ _

theorem year_le_next (d : Date) : d.year ≤ d.next.year := by
  rcases d.next_cases with ⟨hy, -⟩ | ⟨-, -, hy, -⟩ | ⟨-, -, hy, -⟩
  · exact Nat.le_of_eq hy.symm
  · exact Nat.le_of_eq hy.symm
  · exact hy ▸ Nat.le_succ d.year

theorem dateAfter_year_ge (days : Nat) : 1970 ≤ (dateAfter days).year := by
  induction days with
  | zero => exact Nat.le_refl 1970
  | succ days ih =>
      rw [dateAfter_succ]
      exact Nat.le_trans ih (year_le_next _)

/-- **The days since the epoch are found again by the usual formula.** -/
theorem count_dateAfter (days : Nat) : (dateAfter days).count = days + 719468 := by
  induction days with
  | zero => rw [dateAfter_zero, epoch_count]
  | succ days ih =>
      have hyear := dateAfter_year_ge days
      have hnext := Date.count_next (dateAfter days) (by omega)
      rw [dateAfter_succ]
      omega

/-- **The division names the date.** -/
theorem civil_dateAfter (days : Nat) :
    civil (days + 719468) = ((dateAfter days).year, (dateAfter days).month, (dateAfter days).day) := by
  have hyear := dateAfter_year_ge days
  rw [← count_dateAfter, Date.civil_count _ (by omega)]

/-- A date from the epoch on is met, after the days the formula counts. -/
theorem dateAfter_count (d : Date) (hyear : 1970 ≤ d.year) : dateAfter (d.count - 719468) = d := by
  have hfrom : 719468 ≤ d.count := by
    have hpos := d.day_pos
    have hmonth := d.month_pos
    have hfirst : yearCount 1969 = 719162 := by decide +kernel
    have hsecond : yearCount 1970 = 719527 := by decide +kernel
    unfold Date.count Date.marchYear Date.dayOfYear monthIndex
    split
    · have hmono : yearCount 1969 ≤ yearCount (d.year - 1) := yearCount_mono (by omega)
      rw [if_neg (by omega)]
      omega
    · have hmono := yearCount_mono hyear
      omega
  have hname := civil_dateAfter (d.count - 719468)
  rw [Nat.sub_add_cancel hfrom, Date.civil_count d (by omega)] at hname
  simp only [Prod.mk.injEq] at hname
  exact Date.ext' hname.1.symm hname.2.1.symm hname.2.2.symm

/-! ## The order of dates -/

/-- The order of dates: by year, then month, then day. -/
def Date.Before (a b : Date) : Prop :=
  a.year < b.year ∨ a.year = b.year ∧ (a.month < b.month ∨ a.month = b.month ∧ a.day < b.day)

theorem Date.before_next (d : Date) : d.Before d.next := by
  unfold Date.Before
  rcases d.next_cases with ⟨hy, hm, hd⟩ | ⟨-, -, hy, hm, -⟩ | ⟨-, -, hy, -⟩
  · exact Or.inr ⟨hy.symm, Or.inr ⟨hm.symm, by omega⟩⟩
  · exact Or.inr ⟨hy.symm, Or.inl (by omega)⟩
  · exact Or.inl (by omega)

theorem Date.Before.trans {a b c : Date} (hab : a.Before b) (hbc : b.Before c) : a.Before c := by
  unfold Date.Before at *
  omega

theorem Date.Before.irrefl (a : Date) : ¬ a.Before a := by
  unfold Date.Before
  omega

/-- Dates follow one another in their order. -/
theorem dateAfter_before {m n : Nat} (h : m < n) : (dateAfter m).Before (dateAfter n) := by
  induction h with
  | refl => exact dateAfter_succ m ▸ Date.before_next _
  | step _ ih => exact ih.trans (dateAfter_succ _ ▸ Date.before_next _)

theorem dateAfter_before_iff {m n : Nat} : (dateAfter m).Before (dateAfter n) ↔ m < n := by
  constructor
  · intro hbefore
    by_contra hle
    rcases Nat.lt_or_eq_of_le (Nat.le_of_not_lt hle) with hlt | rfl
    · exact Date.Before.irrefl _ (hbefore.trans (dateAfter_before hlt))
    · exact Date.Before.irrefl _ hbefore
  · exact dateAfter_before

theorem dateAfter_inj {m n : Nat} (h : dateAfter m = dateAfter n) : m = n := by
  have hcount := congrArg Date.count h
  rw [count_dateAfter, count_dateAfter] at hcount
  omega

theorem dateAfter_year_mono {m n : Nat} (h : m ≤ n) : (dateAfter m).year ≤ (dateAfter n).year :=
  monotone_nat_of_le_succ (f := fun days => (dateAfter days).year)
    (fun days => dateAfter_succ days ▸ year_le_next _) h

theorem dateAfter_last :
    (dateAfter 2932897).year = 10000 ∧ (dateAfter 2932897).month = 1 ∧ (dateAfter 2932897).day = 1 := by
  have hname := civil_dateAfter 2932897
  rw [show civil (2932897 + 719468) = (10000, 1, 1) by decide +kernel, Prod.mk.injEq, Prod.mk.injEq] at hname
  exact ⟨hname.1.symm, hname.2.1.symm, hname.2.2.symm⟩

/-- The dates up to the end of the year 9999. -/
theorem dateAfter_year_le {days : Nat} (h : days < 2932897) : (dateAfter days).year ≤ 9999 := by
  have hlast := dateAfter_before h
  obtain ⟨hyear, hmonth, hday⟩ := dateAfter_last
  have hmpos := (dateAfter days).month_pos
  have hdpos := (dateAfter days).day_pos
  unfold Date.Before at hlast
  omega

end Gregorian
