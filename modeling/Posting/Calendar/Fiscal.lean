import Posting.Calendar.Date

/-!
# Fiscal years

A fiscal year starts in a month of its own, and its twelve periods are the calendar months counted
from there.  `FiscalCalendar.period` and `FiscalCalendar.year` are a date's coordinates in it.
-/

namespace Posting.Calendar

/-- The period of a month in a fiscal year that starts in the month `start`. -/
def fiscalPeriod (month start : Nat) : Nat :=
  (month + 12 - start) % 12 + 1

/-- A fiscal year, given by the month in which it starts. -/
structure FiscalCalendar where
  startMonth : Nat
  start_pos : 1 ≤ startMonth := by decide
  start_le : startMonth ≤ 12 := by decide
  deriving DecidableEq, Repr

namespace FiscalCalendar

/-- The fiscal year that is the calendar year. -/
def calendarYear : FiscalCalendar :=
  ⟨1, by decide, by decide⟩

instance : Inhabited FiscalCalendar :=
  ⟨calendarYear⟩

/-- The fiscal year that starts in a month. -/
def ofMonth (month : Nat) : Except CalendarError FiscalCalendar :=
  if h : 1 ≤ month ∧ month ≤ 12 then .ok ⟨month, h.1, h.2⟩ else .error (.invalidMonth month)

/-- The period in which a date lies. -/
def period (calendar : FiscalCalendar) (d : Date) : Nat :=
  fiscalPeriod d.month calendar.startMonth

/-- The calendar year in which the fiscal year of a date began. -/
def year (calendar : FiscalCalendar) (d : Date) : Int :=
  if calendar.startMonth ≤ d.month then d.year else d.year - 1

end FiscalCalendar

end Posting.Calendar
