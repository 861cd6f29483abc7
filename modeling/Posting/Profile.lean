import Posting.Batch
import Posting.Calendar.Fiscal

/-!
# Profiles

A `Profile` is what an office sets once: the name of its application, the first month of its fiscal
year, and the pattern of dates on statements.  `Profile.resolve` checks it; a `ResolvedProfile`
stamps batches for a date.
-/

namespace Posting

open Calendar

/-- What an office sets once. -/
structure Profile where
  appName : String := "CoverApp"
  fiscalStartMonth : Nat := 1
  displayDateFormat : String := DisplayFormat.standardPattern
  deriving DecidableEq, Repr

instance : Inhabited Profile :=
  ⟨{}⟩

/-- A profile that has been checked. -/
structure ResolvedProfile where
  appName : String
  calendar : FiscalCalendar
  format : DisplayFormat
  deriving DecidableEq

namespace Profile

/-- The parts of the profile that break their rules. -/
def faults (profile : Profile) : List ProfileFault :=
  (if profile.appName.isEmpty then [.emptyAppName] else []) ++
    (if 1 ≤ profile.fiscalStartMonth ∧ profile.fiscalStartMonth ≤ 12 then []
    else [.startMonthOutOfRange])

/-- The profile, checked: first the name and the month, then the pattern. -/
def resolve (profile : Profile) : Except ExportError ResolvedProfile := do
  match profile.faults with
  | [] =>
    let calendar ← (FiscalCalendar.ofMonth profile.fiscalStartMonth).mapError .calendar
    let format ← (DisplayFormat.ofPattern profile.displayDateFormat).mapError .calendar
    .ok ⟨profile.appName, calendar, format⟩
  | faults => .error (.invalidProfile faults)

end Profile

namespace ResolvedProfile

/-- The heading of the batches of a date: the fiscal period, and the calendar year. -/
def heading (profile : ResolvedProfile) (d : Date) : Heading where
  period := profile.calendar.period d
  year := d.year
  description := d.monthAndYear ++ " " ++ profile.appName ++ " JE"

/-- The batch of a destination and a date. -/
def batch (profile : ResolvedProfile) (destination : Destination) (d : Date) : Batch :=
  .new (.of destination profile.format) (profile.heading d)

/-- The batch of the destination that a text names, and a date. -/
def batchNamed (profile : ResolvedProfile) (text : String) (d : Date) : Except ExportError Batch :=
  (Destination.parse text).map (fun destination => profile.batch destination d)

end ResolvedProfile

end Posting
