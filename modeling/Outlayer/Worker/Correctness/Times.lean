import Outlayer.Lib.Gregorian
import Outlayer.Worker.Correctness.Sentences

/-!
# `Worker.Correctness.Times` — the times that are signed

The time in a sentence is the date of the calendar that the instant lies on, with the hour, the minute and the second of
its day, each in the digits it always takes. So a time has one length, times are ordered as their texts are, and the
instant is found again by the formula that counts the days of a date.
-/

namespace Outlayer
open Text Fields Calendar Gregorian

namespace Worker
namespace Tasks

/-- A date and a second of its day, as `YYYY-MM-DDTHH:MM:SSZ`. -/
def utcText (date : Date) (second : Nat) : List Char :=
  lastDigits 4 date.year ++ '-' :: (lastDigits 2 date.month ++ '-' :: (lastDigits 2 date.day ++
    'T' :: (lastDigits 2 (second / 3600) ++ ':' :: (lastDigits 2 (second % 3600 / 60) ++
      ':' :: (lastDigits 2 (second % 60) ++ ['Z'])))))

/-- The Unix seconds of a second of a day, by the formula that counts days. -/
def unixSeconds (date : Date) (second : Nat) : Nat := (date.count - 719468) * 86400 + second

@[simp] theorem utcText_length (date : Date) (second : Nat) : (utcText date second).length = 20 := by
  simp [utcText]

theorem date_day_lt (date : Date) : date.day < 100 := by
  have hlen := date.day_le
  have hmax : monthLength date.year date.month ≤ 31 := by
    unfold monthLength
    split
    · split <;> decide
    all_goals decide
  omega

/-- The characters of a time are those of the date of the calendar. -/
theorem timeChars_eq {secs : Nat} (h : secs < 253402300800) :
    timeChars secs = utcText (dateAfter (secs / 86400)) (secs % 86400) := by
  have hyear : (dateAfter (secs / 86400)).year ≤ 9999 := dateAfter_year_le (by omega)
  have hmonth := (dateAfter (secs / 86400)).month_le
  have hday := date_day_lt (dateAfter (secs / 86400))
  have hsecond : secs % 86400 < 86400 := Nat.mod_lt _ (by decide)
  simp only [timeChars, civil_dateAfter, clock, utcText]
  rw [padded_eq_lastDigits 3 _ (by omega), padded_eq_lastDigits 1 _ (by omega), padded_eq_lastDigits 1 _ (by omega),
    padded_eq_lastDigits 1 _ (by omega), padded_eq_lastDigits 1 _ (by omega), padded_eq_lastDigits 1 _ (by omega)]

theorem iso8601Utc_in_range {secs : Nat} (h : secs < 253402300800) :
    iso8601Utc (secs : Int) = some (String.ofList (utcText (dateAfter (secs / 86400)) (secs % 86400))) := by
  have hrange : (0 : Int) ≤ secs ∧ (secs : Int) < 253402300800 := by omega
  rw [← timeChars_eq h, iso8601Utc, if_pos hrange]
  rfl

theorem iso8601Utc_out_of_range {secs : Int} (h : secs < 0 ∨ 253402300800 ≤ secs) : iso8601Utc secs = none := by
  rw [iso8601Utc, if_neg (by omega)]

/-- The day and the second of the day, counted back. -/
theorem unixSeconds_dateAfter (secs : Nat) : unixSeconds (dateAfter (secs / 86400)) (secs % 86400) = secs := by
  rw [unixSeconds, count_dateAfter]
  omega

/-- The texts of two times stand in the order of their dates, and on one date in that of their seconds. -/
theorem utcText_before_iff {a b : Date} {s t : Nat} (ha : a.year ≤ 9999) (hb : b.year ≤ 9999) (hs : s < 86400)
    (ht : t < 86400) : TextBefore (utcText a s) (utcText b t) ↔ a.Before b ∨ a = b ∧ s < t := by
  have hday := date_day_lt a
  have hday' := date_day_lt b
  have hmonth := a.month_le
  have hmonth' := b.month_le
  unfold utcText
  rw [lastDigits_before_iff 4 (by omega) (by omega), sep_before_iff, lastDigits_before_iff 2 (by omega) (by omega),
    sep_before_iff, lastDigits_before_iff 2 (by omega) (by omega), sep_before_iff,
    lastDigits_before_iff 2 (by omega) (by omega), sep_before_iff, lastDigits_before_iff 2 (by omega) (by omega),
    sep_before_iff, lastDigits_before_iff 2 (by omega) (by omega)]
  have hend : ¬ TextBefore ['Z'] ['Z'] := fun h => by
    rw [sep_before_iff] at h
    cases h
  have hsame : a = b ↔ a.year = b.year ∧ a.month = b.month ∧ a.day = b.day :=
    ⟨fun h => h ▸ ⟨rfl, rfl, rfl⟩, fun ⟨hy, hm, hd⟩ => Date.ext' hy hm hd⟩
  rw [hsame]
  unfold Date.Before
  simp only [hend, and_false, or_false]
  omega

/-- Times stand in the order of the instants. -/
theorem utcText_order {m n : Nat} (hm : m < 253402300800) (hn : n < 253402300800) :
    TextBefore (utcText (dateAfter (m / 86400)) (m % 86400)) (utcText (dateAfter (n / 86400)) (n % 86400)) ↔ m < n := by
  rw [utcText_before_iff (dateAfter_year_le (by omega)) (dateAfter_year_le (by omega)) (Nat.mod_lt _ (by decide))
    (Nat.mod_lt _ (by decide)), dateAfter_before_iff]
  have hsame : dateAfter (m / 86400) = dateAfter (n / 86400) ↔ m / 86400 = n / 86400 :=
    ⟨dateAfter_inj, congrArg dateAfter⟩
  rw [hsame]
  omega

/-- A date of the years 1970 to 9999 lies in the range that is written. -/
theorem unixSeconds_lt {date : Date} {second : Nat} (hfrom : 1970 ≤ date.year) (hto : date.year ≤ 9999)
    (hsecond : second < 86400) : unixSeconds date second < 253402300800 := by
  have hdays : date.count - 719468 < 2932897 := by
    by_contra hlate
    have hyear := dateAfter_year_mono (Nat.le_of_not_lt hlate)
    rw [dateAfter_count date hfrom, dateAfter_last.1] at hyear
    omega
  unfold unixSeconds
  omega

/-- **Times are exact.** Within the range the text is the date of the calendar and the time of day, in 20 characters,
    from which the formula finds the instant again; every date of the years 1970 to 9999 with a second of its day is
    written, for the instant that the formula gives; texts are as different and stand in the same order as the
    instants; out of the range there is none. -/
theorem signed_times_exact :
    (∀ secs : Int, 0 ≤ secs → secs < 253402300800 → ∃ text, iso8601Utc secs = some text ∧
      text.toList = utcText (dateAfter (secs.toNat / 86400)) (secs.toNat % 86400) ∧ text.toList.length = 20 ∧
      unixSeconds (dateAfter (secs.toNat / 86400)) (secs.toNat % 86400) = secs) ∧
    (∀ (date : Date) (second : Nat), 1970 ≤ date.year → date.year ≤ 9999 → second < 86400 →
      iso8601Utc (unixSeconds date second) = some (String.ofList (utcText date second))) ∧
    (∀ (a b : Int) (text text' : String), iso8601Utc a = some text → iso8601Utc b = some text' →
      (text = text' ↔ a = b) ∧ (TextBefore text.toList text'.toList ↔ a < b)) ∧
    (∀ secs : Int, secs < 0 ∨ 253402300800 ≤ secs → iso8601Utc secs = none) := by
  refine ⟨?_, ?_, ?_, fun secs => iso8601Utc_out_of_range⟩
  · intro secs hpos hlt
    obtain ⟨n, rfl⟩ := Int.eq_ofNat_of_zero_le hpos
    rw [Int.toNat_natCast]
    refine ⟨_, iso8601Utc_in_range (by omega), String.toList_ofList, ?_, ?_⟩
    · rw [String.toList_ofList, utcText_length]
    · exact congrArg Int.ofNat (unixSeconds_dateAfter n)
  · intro date second hfrom hto hsecond
    rw [iso8601Utc_in_range (unixSeconds_lt hfrom hto hsecond)]
    have hday : unixSeconds date second / 86400 = date.count - 719468 := by
      unfold unixSeconds
      omega
    have hrest : unixSeconds date second % 86400 = second := by
      unfold unixSeconds
      omega
    rw [hday, hrest, dateAfter_count date hfrom]
  · intro a b text text' ha hb
    have hrange : ∀ {c : Int} {time : String}, iso8601Utc c = some time → 0 ≤ c ∧ c < 253402300800 := by
      intro c time hc
      by_contra hout
      rw [iso8601Utc_out_of_range (by omega)] at hc
      cases hc
    obtain ⟨hpos, hlt⟩ := hrange ha
    obtain ⟨hpos', hlt'⟩ := hrange hb
    refine ⟨⟨fun h => iso8601Utc_inj ha (h ▸ hb), fun h => ?_⟩, ?_⟩
    · subst h
      exact Option.some.inj (ha.symm.trans hb)
    · obtain ⟨m, rfl⟩ := Int.eq_ofNat_of_zero_le hpos
      obtain ⟨n, rfl⟩ := Int.eq_ofNat_of_zero_le hpos'
      have hm : m < 253402300800 := by omega
      have hn : n < 253402300800 := by omega
      rw [iso8601Utc_in_range hm] at ha
      rw [iso8601Utc_in_range hn] at hb
      rw [← Option.some.inj ha, ← Option.some.inj hb, String.toList_ofList, String.toList_ofList, utcText_order hm hn]
      omega

/-- The leap day of a century year, to the second before midnight. -/
def leapDay : Date where
  year := 2000
  month := 2
  day := 29
  month_pos := by decide
  month_le := by decide
  day_pos := by decide
  day_le := by decide

/-- The last second of the leap day of 2000 is written, and it is before the first of March. -/
theorem leap_day_written :
    iso8601Utc (unixSeconds leapDay 86399) = some (String.ofList (utcText leapDay 86399)) ∧
    unixSeconds leapDay 86399 = 951868799 ∧
    utcText leapDay 86399 = "2000-02-29T23:59:59Z".toList :=
  ⟨signed_times_exact.2.1 leapDay 86399 (by decide) (by decide) (by decide), by decide +kernel, by decide +kernel⟩

end Tasks
end Worker
end Outlayer
