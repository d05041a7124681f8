import Outlayer.Lib.Fields

/-!
# `Lib.Calendar` — days counted, and days named

The year of a day in an era of 400 years is found by one division, after a correction for the leap days before it. The
correction grows with the day and is exact at the ends of the years, so the quotient is the year the day lies in
(`yearStart_le`, `lt_yearStart_succ`); from a year, a month and a day the count of days is found again (`civil_inj`).
-/

namespace Calendar

/-! ## Years of an era -/

/-- The days of an era without its leap days, roughly. -/
def corrected (doe : Nat) : Nat := doe - doe / 1460 + doe / 36524 - doe / 146096

/-- The first day of a year of an era; years begin in March. -/
def yearStart (y : Nat) : Nat := 365 * y + y / 4 - y / 100

theorem corrected_succ (n : Nat) : corrected n ≤ corrected (n + 1) := by
  unfold corrected
  omega

theorem corrected_mono {m n : Nat} (h : m ≤ n) : corrected m ≤ corrected n :=
  monotone_nat_of_le_succ corrected_succ h

/-- The correction is exact at the two ends of every year. -/
theorem corrected_yearStart : ∀ y < 400,
    365 * y ≤ corrected (yearStart y) ∧ (y ≠ 0 → corrected (yearStart y - 1) < 365 * y) := by
  decide +kernel

variable {doe : Nat}

theorem yearOfEra_lt (h : doe < 146097) : corrected doe / 365 < 400 := by
  have hlast : corrected 146096 = 145999 := by decide
  have hmono := corrected_mono (Nat.le_of_lt_succ h)
  omega

theorem yearStart_le (h : doe < 146097) : yearStart (corrected doe / 365) ≤ doe := by
  by_contra hlt
  obtain ⟨-, hbefore⟩ := corrected_yearStart _ (yearOfEra_lt h)
  have hmono : corrected doe ≤ corrected (yearStart (corrected doe / 365) - 1) := corrected_mono (by omega)
  have hne : corrected doe / 365 ≠ 0 := by
    intro hzero
    rw [hzero] at hlt
    exact hlt (Nat.zero_le doe)
  have hstrict := hbefore hne
  omega

/-- A day lies before the next year. -/
theorem dayOfYear_le (h : doe < 146097) : doe - yearStart (corrected doe / 365) ≤ 365 := by
  have hy := yearOfEra_lt h
  by_cases hlast : corrected doe / 365 = 399
  · rw [hlast]
    have hstart : yearStart 399 = 145731 := by decide
    omega
  · obtain ⟨hafter, -⟩ := corrected_yearStart (corrected doe / 365 + 1) (by omega)
    have hlt : doe < yearStart (corrected doe / 365 + 1) := by
      by_contra hge
      have hmono := corrected_mono (Nat.le_of_not_lt hge)
      omega
    have hnext : yearStart (corrected doe / 365 + 1) ≤ yearStart (corrected doe / 365) + 366 := by
      unfold yearStart
      omega
    omega

/-! ## Days -/

/-- Year, month and day of a day counted from the first of March of the year 0. -/
def civil (z : Nat) : Nat × Nat × Nat :=
  let era := z / 146097
  let doe := z % 146097
  let yoe := corrected doe / 365
  let doy := doe - yearStart yoe
  let mp := (5 * doy + 2) / 153
  let day := doy - (153 * mp + 2) / 5 + 1
  let month := if mp < 10 then mp + 3 else mp - 9
  (yoe + era * 400 + (if month ≤ 2 then 1 else 0), month, day)

/-- A month of the year that begins in March is told by its number. -/
theorem month_inj {m n : Nat} (hm : m ≤ 11) (hn : n ≤ 11)
    (h : (if m < 10 then m + 3 else m - 9) = if n < 10 then n + 3 else n - 9) : m = n := by
  split at h <;> split at h <;> omega

/-- **A day is told by its name.** -/
theorem civil_inj {a b : Nat} (h : civil a = civil b) : a = b := by
  have hdoe : ∀ n : Nat, n % 146097 < 146097 := fun n => Nat.mod_lt n (by decide)
  have hyear := yearOfEra_lt (hdoe a)
  have hyear' := yearOfEra_lt (hdoe b)
  have hstart := yearStart_le (hdoe a)
  have hstart' := yearStart_le (hdoe b)
  have hday := dayOfYear_le (hdoe a)
  have hday' := dayOfYear_le (hdoe b)
  simp only [civil, Prod.mk.injEq] at h
  obtain ⟨hy, hmonth, hd⟩ := h
  have ha := Nat.div_add_mod a 146097
  have hb := Nat.div_add_mod b 146097
  generalize a % 146097 = doe at *
  generalize b % 146097 = doe' at *
  generalize a / 146097 = era at *
  generalize b / 146097 = era' at *
  generalize corrected doe / 365 = yoe at *
  generalize corrected doe' / 365 = yoe' at *
  -- the months agree, then the years, then the days
  have hmp := month_inj (by omega) (by omega) hmonth
  rw [hmp] at hy hd
  have hyoe : yoe = yoe' := by omega
  have hera : era = era' := by omega
  rw [hyoe] at hstart hd hmp hday
  generalize yearStart yoe' = start at *
  omega

/-! ## Times of a day -/

/-- Hours, minutes and seconds. -/
def clock (rem : Nat) : Nat × Nat × Nat := (rem / 3600, rem % 3600 / 60, rem % 60)

theorem clock_inj {a b : Nat} (h : clock a = clock b) : a = b := by
  simp only [clock, Prod.mk.injEq] at h
  omega

/-! ## Written numbers -/

/-- A number in decimal digits, with zeros in front up to a width. -/
def padded (width n : Nat) : List Char := (Nat.toDigits 10 n).leftpad width '0'

theorem padded_inj {width m n : Nat} (h : padded width m = padded width n) : m = n := by
  have hvalue : ∀ n, Nat.ofDigitChars 10 (padded width n) 0 = n := by
    intro n
    have hzeros : ∀ k, Nat.ofDigitChars 10 (List.replicate k '0') 0 = 0 := by
      intro k
      induction k with
      | zero => rfl
      | succ k ih => rw [List.replicate_succ]; exact ih
    rw [padded, List.leftpad, Nat.ofDigitChars_append, hzeros]
    exact Nat.ofDigitChars_ten_toDigits
  rw [← hvalue m, h, hvalue n]

theorem isDigit_of_mem_padded {width n : Nat} {c : Char} (h : c ∈ padded width n) : c.isDigit = true := by
  rw [padded, List.leftpad, List.mem_append] at h
  rcases h with h | h
  · rw [List.eq_of_mem_replicate h]
    rfl
  · exact Nat.isDigit_of_mem_toDigits (by decide) (by decide) h

theorem not_mem_padded {width n : Nat} {c : Char} (h : c.isDigit = false) : c ∉ padded width n := fun hc => by
  rw [isDigit_of_mem_padded hc] at h
  cases h

/-! ## Digits of a width -/

/-- The last digits of a number, as many as the width says. -/
def lastDigits : Nat → Nat → List Char
  | 0, _         => []
  | width + 1, n => lastDigits width (n / 10) ++ [Nat.digitChar (n % 10)]

@[simp] theorem lastDigits_length (width : Nat) : ∀ n, (lastDigits width n).length = width := by
  induction width with
  | zero => exact fun _ => rfl
  | succ width ih =>
      intro n
      rw [lastDigits, List.length_append, ih, List.length_singleton]

theorem lastDigits_zero (width : Nat) : lastDigits width 0 = List.replicate width '0' := by
  induction width with
  | zero => rfl
  | succ width ih => rw [lastDigits, Nat.zero_div, ih, List.replicate_succ']; rfl

/-- A number that fits its width is written in exactly so many digits. -/
theorem padded_eq_lastDigits (width : Nat) :
    ∀ n, n < 10 ^ (width + 1) → padded (width + 1) n = lastDigits (width + 1) n := by
  induction width with
  | zero =>
      intro n hn
      have hn : n < 10 := by simpa using hn
      rw [padded, Nat.toDigits_of_lt_base hn, lastDigits, lastDigits, Nat.mod_eq_of_lt hn]
      rfl
  | succ width ih =>
      intro n hn
      by_cases hsmall : n < 10
      · rw [padded, Nat.toDigits_of_lt_base hsmall, lastDigits, Nat.mod_eq_of_lt hsmall, Nat.div_eq_of_lt hsmall,
          lastDigits_zero]
        rfl
      · have hrest := ih (n / 10) (by rw [Nat.pow_succ] at hn; omega)
        have hbase : 10 ≤ n := Nat.le_of_not_lt hsmall
        rw [lastDigits, ← hrest, padded, padded, Nat.toDigits_of_base_le (by decide) hbase, List.leftpad, List.leftpad,
          List.length_append, List.length_singleton, Nat.add_sub_add_right, List.append_assoc]

/-- The order of texts, character by character. -/
abbrev TextBefore : List Char → List Char → Prop := List.Lex fun c d => c.toNat < d.toNat

theorem digitChar_order : ∀ a < 10, ∀ b < 10,
    ((Nat.digitChar a).toNat < (Nat.digitChar b).toNat ↔ a < b) ∧ (Nat.digitChar a = Nat.digitChar b ↔ a = b) := by
  decide

/-- Numbers of one width stand in the order of their texts, and what follows decides where they are equal. -/
theorem lastDigits_before_iff (width : Nat) : ∀ {m n : Nat} {x y : List Char}, m < 10 ^ width → n < 10 ^ width →
    (TextBefore (lastDigits width m ++ x) (lastDigits width n ++ y) ↔ m < n ∨ m = n ∧ TextBefore x y) := by
  induction width with
  | zero =>
      intro m n x y hm hn
      rw [Nat.pow_zero, Nat.lt_one_iff] at hm hn
      rw [hm, hn]
      simp [lastDigits]
  | succ width ih =>
      intro m n x y hm hn
      rw [Nat.pow_succ] at hm hn
      rw [lastDigits, lastDigits, List.append_assoc, List.append_assoc, ih (by omega) (by omega), List.singleton_append,
        List.singleton_append, TextBefore, List.cons_lex_cons_iff]
      obtain ⟨hlt, heq⟩ := digitChar_order (m % 10) (Nat.mod_lt _ (by decide)) (n % 10) (Nat.mod_lt _ (by decide))
      rw [hlt, heq]
      constructor
      · rintro (h | ⟨h, h' | ⟨h', hrest⟩⟩)
        · exact Or.inl (by omega)
        · exact Or.inl (by omega)
        · exact Or.inr ⟨by omega, hrest⟩
      · rintro (h | ⟨rfl, hrest⟩)
        · by_cases htens : m / 10 = n / 10
          · exact Or.inr ⟨htens, Or.inl (by omega)⟩
          · exact Or.inl (by omega)
        · exact Or.inr ⟨rfl, Or.inr ⟨rfl, hrest⟩⟩

theorem sep_before_iff (sep : Char) (x y : List Char) : TextBefore (sep :: x) (sep :: y) ↔ TextBefore x y := by
  rw [TextBefore, List.cons_lex_cons_iff]
  simp

end Calendar
