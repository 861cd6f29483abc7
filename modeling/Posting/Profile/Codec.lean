import Posting.Json.Record
import Posting.Profile

/-!
# The JSON form of profiles

Profiles are records; fiscal years are the number of the month in which they start, display formats
are their patterns, and destinations are their names.
-/

namespace Posting

open Calendar Json

/-- Fiscal years as the month in which they start. -/
def Calendar.FiscalCalendar.codec : Codec FiscalCalendar :=
  (Codec.natural 32).refine startMonth (fun n => (ofMonth n).mapError CalendarError.message)

/-- Display formats as their patterns. -/
def Calendar.DisplayFormat.codec : Codec DisplayFormat :=
  Codec.string.refine pattern (fun s => (ofPattern s).mapError CalendarError.message)

/-- Destinations as their names. -/
def Destination.codec : Codec Destination :=
  .choice name (all.map (fun destination => (destination.name, destination)))

namespace Profile

/-- The fields of a profile, in their order. -/
def fields : List (RecordField Profile) :=
  [⟨"app_name", .string, appName, fun x p => { p with appName := x }⟩,
    ⟨"fiscal_start_month", .natural 32, fiscalStartMonth, fun x p => { p with fiscalStartMonth := x }⟩,
    ⟨"display_date_format", .string, displayDateFormat,
      fun x p => { p with displayDateFormat := x }⟩]

/-- Profiles as records, of which missing fields are as in the standard profile. -/
def codec : Codec Profile :=
  .record "struct ExportConfig" {} fields

end Profile

end Posting
