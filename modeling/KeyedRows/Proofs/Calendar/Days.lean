/-
# Days are counted without a gap

A year that begins in March ends with its leap day, so the number of a day tells
its year in an era of 400 years (`yearOfEra_of_dayOfEra`), and the number of a
day in such a year tells its month. Every day of the calendar is therefore found
again from its count (`Date.ofDays_toDays`), before 1970 as after it, and the day
after it has the next count (`Date.toDays_next`). With the milliseconds of the
day, so is every moment (`Moment.ofMillis?_toMillis`).

Key definitions: `Date.Proper`, `Date.next`, `Date.previous`, `TimeOfDay.Whole`.
Key theorems: `Date.ofDays_toDays`, `Moment.ofMillis?_toMillis`.
-/
import Mathlib
import KeyedRows.Calendar.Moment

namespace KeyedRows.Calendar

theorem isLeapYear_iff (y : ℤ) :
    isLeapYear y = true ↔ y % 4 = 0 ∧ (y % 100 ≠ 0 ∨ y % 400 = 0) := by
  simp [isLeapYear]

/-! ### Days -/

/-- **The year of a day in its era.** Days count from the first of March of a year
that can be divided by 400; only a leap year has a day of number 365. -/
theorem yearOfEra_of_dayOfEra {year day : ℤ} (hyear : 0 ≤ year ∧ year < 400) (hday : 0 ≤ day)
    (hlast : day < 365 ∨ day = 365 ∧ isLeapYear (year + 1)) :
    let n := 365 * year + year / 4 - year / 100 + day
    0 ≤ n ∧ n < 146097 ∧ (n - n / 1460 + n / 36524 - n / 146096) / 365 = year := by
  intro n
  rw [isLeapYear_iff] at hlast
  have hcentury : n / 36524 - n / 146096 = year / 100 := by
    have hbounds : 36524 * (year / 100) ≤ n ∧
        (n < 36524 * (year / 100 + 1) ∨ year / 100 = 3 ∧ n = 146096) := by
      obtain ⟨quarter, hquarter⟩ : ∃ q, q = year % 100 / 4 := ⟨_, rfl⟩
      have hfour : year / 4 = 25 * (year / 100) + quarter := by omega
      -- the last year of a century has its leap day only at the end of the era
      have hrest : year % 100 ≤ 98 ∨ year % 100 = 99 := by omega
      rcases hrest with hrest | hrest <;> rcases hlast with h | ⟨h, h4, h100⟩ <;> omega
    omega
  have hleaps : 0 ≤ year / 4 + day - n / 1460 ∧ year / 4 + day - n / 1460 < 365 := by
    have hrest : year % 4 = 0 ∨ year % 4 = 1 ∨ year % 4 = 2 ∨ year % 4 = 3 := by omega
    rcases hrest with hrest | hrest | hrest | hrest <;> omega
  omega

namespace Date

/-- The day is one of its month, and the month one of its year. -/
structure Proper (d : Date) : Prop where
  month : 1 ≤ d.month ∧ d.month ≤ 12
  day : 1 ≤ d.day ∧ d.day ≤ daysInMonth d.year d.month

theorem isValid_iff (d : Date) :
    d.isValid = true ↔ (leastYear ≤ d.year ∧ d.year ≤ greatestYear) ∧ d.Proper := by
  simp only [isValid, Bool.and_eq_true, decide_eq_true_eq]
  constructor
  · rintro ⟨⟨⟨⟨⟨hleast, hgreatest⟩, hm⟩, hm'⟩, hd⟩, hd'⟩
    exact ⟨⟨hleast, hgreatest⟩, ⟨hm, hm'⟩, hd, hd'⟩
  · rintro ⟨⟨hleast, hgreatest⟩, ⟨hm, hm'⟩, hd, hd'⟩
    exact ⟨⟨⟨⟨⟨hleast, hgreatest⟩, hm⟩, hm'⟩, hd⟩, hd'⟩

/-- The day after a day. -/
def next (d : Date) : Date :=
  if d.day < daysInMonth d.year d.month then { d with day := d.day + 1 }
  else if d.month < 12 then ⟨d.year, d.month + 1, 1⟩
  else ⟨d.year + 1, 1, 1⟩

/-- The day before a day. -/
def previous (d : Date) : Date :=
  if 1 < d.day then { d with day := d.day - 1 }
  else if 1 < d.month then ⟨d.year, d.month - 1, daysInMonth d.year (d.month - 1)⟩
  else ⟨d.year - 1, 12, 31⟩

/-- A day in terms of its era, its year that begins in March and the month of this
year. -/
theorem ofDays_of_parts (era year : ℤ) {month : ℤ} {day : ℕ} (hyear : 0 ≤ year ∧ year < 400)
    (hday : 0 ≤ (153 * month + 2) / 5 + day - 1)
    (hmonth : (5 * ((153 * month + 2) / 5 + day - 1) + 2) / 153 = month)
    (hlast : (153 * month + 2) / 5 + day - 1 < 365 ∨
      (153 * month + 2) / 5 + day - 1 = 365 ∧ isLeapYear (year + 1)) :
    ofDays (era * 146097 +
        (365 * year + year / 4 - year / 100 + ((153 * month + 2) / 5 + day - 1)) - 719468) =
      if month < 10 then ⟨era * 400 + year, (month + 3).toNat, day⟩
      else ⟨era * 400 + year + 1, (month - 9).toNat, day⟩ := by
  obtain ⟨dayOfYear, hdoy⟩ : ∃ n, n = (153 * month + 2) / 5 + day - 1 := ⟨_, rfl⟩
  rw [← hdoy] at hday hmonth hlast ⊢
  obtain ⟨hpos, hlt, hyears⟩ := yearOfEra_of_dayOfEra hyear hday hlast
  obtain ⟨dayOfEra, hdoe⟩ : ∃ n, n = 365 * year + year / 4 - year / 100 + dayOfYear := ⟨_, rfl⟩
  rw [← hdoe] at hpos hlt hyears ⊢
  have hera : (era * 146097 + dayOfEra - 719468 + 719468) / 146097 = era := by omega
  have hrest : (era * 146097 + dayOfEra - 719468 + 719468) % 146097 = dayOfEra := by omega
  have hdayOfYear : dayOfEra - (365 * year + year / 4 - year / 100) = dayOfYear := by omega
  have hdayOfMonth : (dayOfYear - (153 * month + 2) / 5 + 1).toNat = day := by omega
  simp only [ofDays, hera, hrest, hyears, hdayOfYear, hmonth, hdayOfMonth]

/-- The number of a day in a year that begins in March tells the month, and is less
than 365 but for the leap day. -/
theorem dayOfYear_spec {year : ℤ} {m day : ℕ} (hm : 1 ≤ m ∧ m ≤ 12)
    (hday : 1 ≤ day ∧ day ≤ daysInMonth year m) :
    let month : ℤ := (m + 9) % 12
    let n := (153 * month + 2) / 5 + day - 1
    0 ≤ n ∧ (5 * n + 2) / 153 = month ∧ (n < 365 ∨ n = 365 ∧ m = 2 ∧ isLeapYear year) := by
  obtain ⟨hm, hm'⟩ := hm
  obtain ⟨hday, hday'⟩ := hday
  by_cases hfebruary : m = 2
  · subst hfebruary
    by_cases hleap : isLeapYear year = true
    · have hlength : daysInMonth year 2 = 29 := by simp [daysInMonth, hleap]
      refine ⟨by omega, by omega, ?_⟩
      by_cases hlast : day = 29
      · exact .inr ⟨by omega, rfl, hleap⟩
      · exact .inl (by omega)
    · have hlength : daysInMonth year 2 = 28 := by simp [daysInMonth, hleap]
      exact ⟨by omega, by omega, .inl (by omega)⟩
  · simp only [daysInMonth, hfebruary, if_false] at hday'
    interval_cases m <;> simp_all <;> omega

/-- **Every day is found again from its count.** -/
theorem ofDays_toDays {d : Date} (h : d.Proper) : ofDays d.toDays = d := by
  obtain ⟨year, m, day⟩ := d
  have hm : 1 ≤ m ∧ m ≤ 12 := h.month
  have hbefore : m ≤ 2 → ((m : ℤ) + 9) % 12 = m + 9 := by omega
  have hafter : ¬ m ≤ 2 → ((m : ℤ) + 9) % 12 = m - 3 := by omega
  have hday : 1 ≤ day ∧ day ≤ daysInMonth year m := h.day
  obtain ⟨hpos, hmonth, hlast⟩ := dayOfYear_spec hm hday
  by_cases hspring : m ≤ 2
  · -- January and February belong to the year that began before
    have hlast' := hlast.imp_right fun ⟨hn, _, hleap⟩ => And.intro hn
      (show isLeapYear ((year - 1) % 400 + 1) by
        rw [isLeapYear_iff] at hleap ⊢
        omega)
    have hparts :=
      ofDays_of_parts ((year - 1) / 400) ((year - 1) % 400) (by omega) hpos hmonth hlast'
    simp only [hbefore hspring] at hparts
    simp only [toDays, hspring, if_true, hbefore hspring]
    rw [hparts, if_neg (by omega), mk.injEq]
    omega
  · have hlast' := hlast.imp_right fun ⟨hn, hfebruary, _⟩ => And.intro hn
      (show isLeapYear (year % 400 + 1) from absurd hfebruary fun he => hspring he.le)
    have hparts := ofDays_of_parts (year / 400) (year % 400) (by omega) hpos hmonth hlast'
    simp only [hafter hspring] at hparts
    simp only [toDays, hspring, if_false, hafter hspring]
    rw [hparts, if_pos (by omega), mk.injEq]
    omega

/-- The days of whole years, by eras and on from the start. -/
theorem eraDays_eq (year : ℤ) :
    year / 400 * 146097 + (365 * (year % 400) + year % 400 / 4 - year % 400 / 100) =
      365 * year + year / 4 - year / 100 + year / 400 := by omega

/-- The first of March follows the last of February. -/
theorem toDays_march (year : ℤ) :
    toDays ⟨year, 3, 1⟩ = toDays ⟨year, 2, daysInMonth year 2⟩ + 1 := by
  have hyear := eraDays_eq year
  have hbefore := eraDays_eq (year - 1)
  by_cases hleap : isLeapYear year = true
  · have hlength : daysInMonth year 2 = 29 := by simp [daysInMonth, hleap]
    rw [isLeapYear_iff] at hleap
    have hstep : 365 * year + year / 4 - year / 100 + year / 400 =
        365 * (year - 1) + (year - 1) / 4 - (year - 1) / 100 + (year - 1) / 400 + 366 := by omega
    simp [toDays, hlength]
    omega
  · have hlength : daysInMonth year 2 = 28 := by simp [daysInMonth, hleap]
    rw [isLeapYear_iff] at hleap
    have hstep : 365 * year + year / 4 - year / 100 + year / 400 =
        365 * (year - 1) + (year - 1) / 4 - (year - 1) / 100 + (year - 1) / 400 + 365 := by omega
    simp [toDays, hlength]
    omega

/-- **The day after a day has the next count.** -/
theorem toDays_next {d : Date} (h : d.Proper) : d.next.toDays = d.toDays + 1 := by
  obtain ⟨year, m, day⟩ := d
  have hm : 1 ≤ m ∧ m ≤ 12 := h.month
  have hday : 1 ≤ day ∧ day ≤ daysInMonth year m := h.day
  by_cases hlast : day < daysInMonth year m
  · simp only [next, hlast, if_true, toDays]
    omega
  by_cases hdecember : m < 12
  · simp only [next, hlast, hdecember, if_true, if_false]
    by_cases hfebruary : m = 2
    · subst hfebruary
      obtain rfl : day = daysInMonth year 2 := by omega
      exact toDays_march year
    · simp only [daysInMonth, hfebruary, if_false] at hlast hday
      simp only [toDays]
      obtain ⟨hm, -⟩ := hm
      interval_cases m <;> simp_all <;> omega
  · obtain rfl : m = 12 := by omega
    have hlength : daysInMonth year 12 = 31 := rfl
    simp only [next, hlast, hdecember, if_false, toDays]
    omega

theorem daysInMonth_pos (year : ℤ) (m : ℕ) : 1 ≤ daysInMonth year m := by
  unfold daysInMonth
  split_ifs <;> omega

/-- The day after a day is one of the calendar. -/
theorem proper_next {d : Date} (h : d.Proper) : d.next.Proper := by
  obtain ⟨⟨hm, hm'⟩, hd, hd'⟩ := h
  unfold next
  split_ifs with hlast hdecember
  · exact ⟨⟨hm, hm'⟩, Nat.le_add_left 1 _, hlast⟩
  · exact ⟨⟨Nat.le_add_left 1 _, hdecember⟩, le_rfl, daysInMonth_pos _ _⟩
  · exact ⟨⟨le_rfl, show 1 ≤ 12 by decide⟩, le_rfl, daysInMonth_pos _ _⟩

/-- The day before a day is one of the calendar, and the day after it is the day. -/
theorem previous_spec {d : Date} (h : d.Proper) : d.previous.Proper ∧ d.previous.next = d := by
  obtain ⟨year, m, day⟩ := d
  obtain ⟨⟨hm, hm'⟩, hd, hd'⟩ := h
  simp only at hm hm' hd hd'
  unfold previous
  split_ifs with hfirst hjanuary
  · have hlast : day - 1 < daysInMonth year m := by omega
    refine ⟨⟨⟨hm, hm'⟩, Nat.le_sub_one_of_lt hfirst, hlast.le⟩, ?_⟩
    simp only [next, hlast, if_true, Nat.sub_add_cancel hd]
  · obtain rfl : day = 1 := by simp only at hfirst; omega
    simp only at hjanuary
    have hdecember : m - 1 < 12 := by omega
    refine ⟨⟨⟨Nat.le_sub_one_of_lt hjanuary, hdecember.le⟩, daysInMonth_pos _ _, le_rfl⟩, ?_⟩
    simp only [next, lt_irrefl, hdecember, if_true, if_false, Nat.sub_add_cancel hm]
  · obtain rfl : day = 1 := by simp only at hfirst; omega
    obtain rfl : m = 1 := by simp only at hjanuary; omega
    refine ⟨⟨⟨show 1 ≤ 12 by decide, show 12 ≤ 12 by decide⟩, show 1 ≤ 31 by decide, le_rfl⟩, ?_⟩
    have hlength : daysInMonth (year - 1) 12 = 31 := rfl
    simp [next, hlength]

theorem toDays_previous {d : Date} (h : d.Proper) : d.previous.toDays = d.toDays - 1 := by
  obtain ⟨hproper, hnext⟩ := previous_spec h
  have hstep := toDays_next hproper
  rw [hnext] at hstep
  omega

end Date

/-! ### Moments -/

/-- A time of day with no leap second and no part of a millisecond. -/
structure TimeOfDay.Whole (t : TimeOfDay) : Prop where
  hour : t.hour < 24
  minute : t.minute < 60
  second : t.second < 60
  millis : ∃ n < 1000, t.nanosecond = n * 1000000

/-- **Every time of day is found again from its milliseconds.** -/
theorem TimeOfDay.ofMillis_toMillis {t : TimeOfDay} (h : t.Whole) : ofMillis t.toMillis = t := by
  obtain ⟨hour, minute, second, nanosecond⟩ := t
  obtain ⟨hhour, hminute, hsecond, n, hn, rfl⟩ := h
  simp only at hhour hminute hsecond
  simp only [toMillis, ofMillis, mk.injEq]
  omega

theorem TimeOfDay.toMillis_lt {t : TimeOfDay} (h : t.Whole) : t.toMillis < 86400000 := by
  obtain ⟨hhour, hminute, hsecond, n, hn, hnano⟩ := h
  rw [toMillis, hnano]
  omega

namespace Moment

/-- **Every moment is found again from its milliseconds**, before 1970 as after it. -/
theorem ofMillis?_toMillis {m : Moment} (hdate : m.date.isValid = true) (htime : m.time.Whole) :
    ofMillis? m.toMillis = some m := by
  have hlt := TimeOfDay.toMillis_lt htime
  have hdays : m.toMillis / 86400000 = m.date.toDays := by
    rw [toMillis]
    omega
  have hrest : (m.toMillis % 86400000).toNat = m.time.toMillis := by
    rw [toMillis]
    omega
  have hproper := ((Date.isValid_iff _).mp hdate).2
  rw [ofMillis?, hdays, hrest, Date.ofDays_toDays hproper, TimeOfDay.ofMillis_toMillis htime]
  simp [hdate]

/-- The moment that a clock shows so many minutes before a moment, if it is less than
a day. -/
def earlier (m : Moment) (minutes : ℤ) : Moment :=
  let left : ℤ := m.time.hour * 60 + m.time.minute - minutes
  ⟨if left < 0 then m.date.previous else if left < 1440 then m.date else m.date.next,
    { m.time with hour := (left % 1440 / 60).toNat, minute := (left % 60).toNat }⟩

theorem whole_earlier {m : Moment} (h : m.time.Whole) (minutes : ℤ) :
    (m.earlier minutes).time.Whole where
  hour := by simp only [earlier]; omega
  minute := by simp only [earlier]; omega
  second := h.second
  millis := h.millis

/-- A clock that is put back shows so many minutes less. -/
theorem toMillis_earlier {m : Moment} (hdate : m.date.Proper) (htime : m.time.Whole) {minutes : ℤ}
    (hminutes : -1440 < minutes ∧ minutes < 1440) :
    (m.earlier minutes).toMillis = m.toMillis - minutes * 60000 := by
  have hprevious := Date.toDays_previous hdate
  have hnext := Date.toDays_next hdate
  obtain ⟨hhour, hminute, -⟩ := htime
  simp only [earlier, toMillis, TimeOfDay.toMillis]
  split_ifs <;> omega

theorem proper_earlier {m : Moment} (h : m.date.Proper) (minutes : ℤ) :
    (m.earlier minutes).date.Proper := by
  simp only [earlier]
  split_ifs
  · exact (Date.previous_spec h).1
  · exact h
  · exact Date.proper_next h

end Moment
end KeyedRows.Calendar
