import Mathlib.Tactic
import Posting.Proofs.DateReading

/-! # Days counted

`Date.dayNumber` counts the days from the first of January of year 1, which is day 1, so that a date
is before another one if its day has the lesser number.

* A day comes before those of later months (`Date.ordinal_le_daysBefore`) and before those of later
  years (`Date.dayNumber_lt_of_year_lt`).
* `Date.dayNumber_lt_iff`: dates are in order by their year, then by their month, then by their
  day. -/

namespace Posting.Calendar

/-! ### Months of a year -/

/-- The days of a year before a month. -/
def daysBefore (year : ℤ) (month : ℕ) : ℕ :=
  ((List.range (month - 1)).map (fun m => daysInMonth year (m + 1))).sum

theorem daysBefore_succ (year : ℤ) {month : ℕ} (h : 1 ≤ month) :
    daysBefore year (month + 1) = daysBefore year month + daysInMonth year month := by
  obtain ⟨m, rfl⟩ : ∃ m, month = m + 1 := ⟨month - 1, by omega⟩
  simp [daysBefore, List.range_succ]

theorem daysBefore_le (year : ℤ) {month later : ℕ} (hmonth : 1 ≤ month) (h : month ≤ later) :
    daysBefore year month ≤ daysBefore year later := by
  induction later, h using Nat.le_induction with
  | base => exact le_rfl
  | succ later hle ih =>
      rw [daysBefore_succ year (hmonth.trans hle)]
      omega

theorem daysBefore_end (year : ℤ) : daysBefore year 13 = daysInYear year := by
  unfold daysInYear
  simp only [daysBefore, daysInMonth, List.range_succ, List.range_zero]
  split <;> simp

namespace Date

theorem ordinal_eq (d : Date) : d.ordinal = daysBefore d.year d.month + d.day := by
  have hfold (ms : List ℕ) : ms.foldr (fun m days => daysInMonth d.year (m + 1) + days) d.day =
      (ms.map (fun m => daysInMonth d.year (m + 1))).sum + d.day := by
    induction ms with
    | nil => simp
    | cons m ms ih =>
        rw [List.foldr_cons, ih, List.map_cons, List.sum_cons]
        omega
  exact hfold _

theorem ordinal_le_daysBefore (d : Date) {month : ℕ} (h : d.month < month) :
    d.ordinal ≤ daysBefore d.year month := by
  have hday : d.day ≤ daysInMonth d.year d.month := d.isDate.2.2.2
  have hle := daysBefore_le d.year (d.month_pos.trans (Nat.le_succ _)) (Nat.succ_le_of_lt h)
  rw [Nat.succ_eq_add_one, daysBefore_succ d.year d.month_pos] at hle
  rw [ordinal_eq]
  omega

theorem ordinal_pos (d : Date) : 1 ≤ d.ordinal := by
  have := d.day_pos
  rw [ordinal_eq]
  omega

theorem ordinal_le (d : Date) : d.ordinal ≤ daysInYear d.year := by
  have := d.month_le
  rw [← daysBefore_end]
  exact d.ordinal_le_daysBefore (by omega)

end Date

/-! ### Years -/

/-- The days before a year, from the first of January of year 1. -/
def daysBeforeYear (year : ℤ) : ℤ :=
  (year - 1) * 365 + (year - 1) / 4 - (year - 1) / 100 + (year - 1) / 400

theorem isLeapYear_iff (year : ℤ) :
    isLeapYear year = true ↔ year % 4 = 0 ∧ (year % 100 ≠ 0 ∨ year % 400 = 0) := by
  simp [isLeapYear]

theorem daysBeforeYear_succ (year : ℤ) :
    daysBeforeYear (year + 1) = daysBeforeYear year + daysInYear year := by
  unfold daysBeforeYear daysInYear
  by_cases hleap : isLeapYear year = true
  · rw [if_pos hleap]
    rw [isLeapYear_iff] at hleap
    push_cast
    omega
  · rw [if_neg hleap]
    rw [isLeapYear_iff] at hleap
    push_cast
    omega

theorem daysBeforeYear_le {year later : ℤ} (h : year ≤ later) :
    daysBeforeYear year ≤ daysBeforeYear later := by
  unfold daysBeforeYear
  omega

/-! ### Days -/

namespace Date

/-- The number of a day, from 1 for the first of January of year 1. -/
def dayNumber (d : Date) : ℤ :=
  daysBeforeYear d.year + d.ordinal

theorem dayNumber_lt_of_year_lt {d e : Date} (h : d.year < e.year) :
    d.dayNumber < e.dayNumber := by
  have hle := daysBeforeYear_le (show d.year + 1 ≤ e.year by omega)
  have hordinal := d.ordinal_le
  have hpos := e.ordinal_pos
  rw [daysBeforeYear_succ] at hle
  unfold dayNumber
  omega

/-- A date that is before another one by year, month and day. -/
def Precedes (d e : Date) : Prop :=
  d.year < e.year ∨ d.year = e.year ∧ (d.month < e.month ∨ d.month = e.month ∧ d.day < e.day)

theorem Precedes.dayNumber_lt {d e : Date} (h : d.Precedes e) : d.dayNumber < e.dayNumber := by
  rcases h with hyear | ⟨hyear, hmonth | ⟨hmonth, hday⟩⟩
  · exact dayNumber_lt_of_year_lt hyear
  · have hbefore := d.ordinal_le_daysBefore hmonth
    have hpos := e.day_pos
    rw [dayNumber, dayNumber, e.ordinal_eq, ← hyear]
    omega
  · rw [dayNumber, dayNumber, d.ordinal_eq, e.ordinal_eq, ← hyear, ← hmonth]
    omega

theorem precedes_or_eq_or_precedes (d e : Date) : d.Precedes e ∨ d = e ∨ e.Precedes d := by
  unfold Precedes
  by_cases heq : d.year = e.year ∧ d.month = e.month ∧ d.day = e.day
  · right
    left
    obtain ⟨year, month, day, _⟩ := d
    obtain ⟨year', month', day', _⟩ := e
    obtain ⟨rfl, rfl, rfl⟩ := heq
    rfl
  · omega

theorem dayNumber_lt_iff {d e : Date} : d.dayNumber < e.dayNumber ↔ d.Precedes e := by
  refine ⟨fun h => ?_, Precedes.dayNumber_lt⟩
  rcases precedes_or_eq_or_precedes d e with hbefore | rfl | hafter
  · exact hbefore
  · exact absurd h (lt_irrefl _)
  · exact absurd hafter.dayNumber_lt (not_lt.mpr h.le)

end Date

end Posting.Calendar
