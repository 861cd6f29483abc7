import Posting.Calendar.Date
import Posting.Destination

/-!
# Why an export is refused

The reasons for which a profile cannot be used, a batch cannot be made, or a batch takes no further
transaction, each with its message.
-/

namespace Posting

open Calendar

/-- A part of a profile that breaks its rule. -/
inductive ProfileFault
  | emptyAppName
  | startMonthOutOfRange
  deriving DecidableEq, Repr

/-- What is said of a part of a profile that breaks its rule. -/
def ProfileFault.message : ProfileFault → String
  | .emptyAppName => "app_name: app name must not be empty"
  | .startMonthOutOfRange => "fiscal_start_month: fiscal start month must be 1-12"

/-- Why an export is refused. -/
inductive ExportError
  | unsupportedDestination (text : String)
  | invalidProfile (faults : List ProfileFault)
  | calendar (error : CalendarError)
  | sequenceExhausted (maxRows : Nat)
  | archiveUnsupported (destination : Destination)
  deriving DecidableEq, Repr

/-- What is said of a refused export. -/
def ExportError.message : ExportError → String
  | .unsupportedDestination text => "Unsupported export destination: " ++ Text.quoted text
  | .invalidProfile faults =>
    "Invalid export configuration: " ++ "\n".intercalate (faults.map ProfileFault.message)
  | .calendar error => "Calendar configuration error: " ++ error.message
  | .sequenceExhausted maxRows =>
    s!"Row sequence exhausted: a sequenced batch holds at most {maxRows} rows"
  | .archiveUnsupported destination =>
    "Archive rendering is not supported for " ++ destination.name

/-- The destination that a text names. -/
def Destination.parse (text : String) : Except ExportError Destination :=
  match parse? text with
  | some destination => .ok destination
  | none => .error (.unsupportedDestination text)

end Posting
