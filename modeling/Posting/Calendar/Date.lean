import Posting.Text.Characters

/-!
# Calendar dates

Dates of the proleptic Gregorian calendar in the years from -262143 to 262142; the year before
year 1 is year 0.

* `Date.of?` is the date of a year, a month and a day, if there is one.
* `Date.ordinal` counts the days of a year, `Date.weekday` those of a week from Monday.
* `Date.isoWeek` and `Date.isoYear` belong to the week's Thursday.
* A `CalendarError` is a month outside 1 to 12, or a display pattern that no date can fill.
-/

namespace Posting.Calendar

/-- Whether a year has a 29th of February. -/
def isLeapYear (year : Int) : Bool :=
  year % 4 == 0 && (year % 100 != 0 || year % 400 == 0)

/-- The number of days in a month. -/
def daysInMonth (year : Int) : Nat → Nat
  | 2 => if isLeapYear year then 29 else 28
  | 4 | 6 | 9 | 11 => 30
  | _ => 31

/-- The number of days in a year. -/
def daysInYear (year : Int) : Nat :=
  if isLeapYear year then 366 else 365

/-- Whether a year, a month and a day name a date. -/
def IsDate (year : Int) (month day : Nat) : Prop :=
  (-262143 ≤ year ∧ year ≤ 262142) ∧ (1 ≤ month ∧ month ≤ 12) ∧
    1 ≤ day ∧ day ≤ daysInMonth year month

instance (year : Int) (month day : Nat) : Decidable (IsDate year month day) := by
  unfold IsDate
  infer_instance

/-- A date of the calendar. -/
structure Date where
  year : Int
  month : Nat
  day : Nat
  isDate : IsDate year month day
  deriving DecidableEq, Repr

namespace Date

/-- The date of a year, a month and a day, if there is one. -/
def of? (year : Int) (month day : Nat) : Option Date :=
  if h : IsDate year month day then some ⟨year, month, day, h⟩ else none

def epoch : Date :=
  ⟨1970, 1, 1, by decide⟩

instance : Inhabited Date :=
  ⟨epoch⟩

theorem month_pos (d : Date) : 1 ≤ d.month :=
  d.isDate.2.1.1

theorem month_le (d : Date) : d.month ≤ 12 :=
  d.isDate.2.1.2

/-- The place of a date in its year, from 1. -/
def ordinal (d : Date) : Nat :=
  (List.range (d.month - 1)).foldr (fun m days => daysInMonth d.year (m + 1) + days) d.day

/-- The day of the week, from 0 for Monday to 6 for Sunday. -/
def weekday (d : Date) : Nat :=
  let before := d.year - 1
  ((before * 365 + before / 4 - before / 100 + before / 400 + d.ordinal - 1) % 7).toNat

/-- The day of the week, from 0 for Sunday to 6 for Saturday. -/
def weekdayFromSunday (d : Date) : Nat :=
  (d.weekday + 1) % 7

/-- The number of weeks begun in the year, where a week begins `sinceStart` days before the date. -/
def weeksBegun (d : Date) (sinceStart : Nat) : Nat :=
  (d.ordinal + 6 - sinceStart) / 7

/-- The place in the year of the Thursday of the date's week; it may lie in a neighbouring year. -/
def thursday (d : Date) : Int :=
  (d.ordinal : Int) + 3 - d.weekday

/-- The year to which the date's week belongs. -/
def isoYear (d : Date) : Int :=
  if d.thursday < 1 then d.year - 1
  else if d.thursday > daysInYear d.year then d.year + 1
  else d.year

/-- The number of the date's week in the year to which it belongs. -/
def isoWeek (d : Date) : Nat :=
  let inYear : Int :=
    if d.thursday < 1 then d.thursday + daysInYear (d.year - 1)
    else if d.thursday > daysInYear d.year then d.thursday - daysInYear d.year
    else d.thursday
  ((inYear + 6) / 7).toNat

end Date

def monthName : Nat → String
  | 1 => "January"
  | 2 => "February"
  | 3 => "March"
  | 4 => "April"
  | 5 => "May"
  | 6 => "June"
  | 7 => "July"
  | 8 => "August"
  | 9 => "September"
  | 10 => "October"
  | 11 => "November"
  | _ => "December"

/-- The name of a day of the week, counted from 0 for Monday. -/
def weekdayName : Nat → String
  | 0 => "Monday"
  | 1 => "Tuesday"
  | 2 => "Wednesday"
  | 3 => "Thursday"
  | 4 => "Friday"
  | 5 => "Saturday"
  | _ => "Sunday"

/-- Why a calendar setting cannot be used. -/
inductive CalendarError
  | invalidMonth (month : Nat)
  | invalidPattern (pattern : String)
  deriving DecidableEq, Repr

/-- What is said of a calendar setting that cannot be used. -/
def CalendarError.message : CalendarError → String
  | .invalidMonth month => s!"Invalid month {month}: expected 1-12"
  | .invalidPattern pattern => "Invalid date format pattern: " ++ Text.quoted pattern

end Posting.Calendar
