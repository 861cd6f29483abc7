import Posting.Profile
import Posting.Settings.Literal
import Posting.Settings.NamePath

/-!
# Settings

The settings of a run are a profile, a directory for batch files and a level of logging.
`Settings.load` takes them from the variables whose names are paths to settings, and fills in the
rest.  A path with steps behind the name of a setting makes it a map or a sequence, which no setting
can be; an index that no sequence has breaks the program off, whatever setting it is about.
-/

namespace Posting

open Settings

/-- The settings of a run. -/
structure Settings where
  appName : String := ({} : Profile).appName
  fiscalStartMonth : Nat := ({} : Profile).fiscalStartMonth
  displayDateFormat : String := ({} : Profile).displayDateFormat
  outputDir : String := "exports"
  logLevel : String := "info"
  deriving DecidableEq, Repr

instance : Inhabited Settings :=
  ⟨{}⟩

namespace Settings

def profile (settings : Settings) : Profile where
  appName := settings.appName
  fiscalStartMonth := settings.fiscalStartMonth
  displayDateFormat := settings.displayDateFormat

/-- What variables make of a setting. -/
inductive Given
  | literal (l : Literal)
  | map
  | sequence
  deriving DecidableEq, Repr

/-- Why a setting cannot be what variables make of it. -/
inductive SettingFault
  | month (fault : MonthFault)
  /-- A container in place of what is named. -/
  | container (given : Given) (expected : String)
  deriving DecidableEq, Repr

/-- A setting that cannot be what variables make of it. -/
structure SettingError where
  key : String
  fault : SettingFault
  deriving DecidableEq, Repr

/-- Why settings cannot be loaded. -/
inductive LoadError
  | setting (error : SettingError)
  /-- A name with an index that no sequence has. -/
  | impossibleIndex (name : String)
  deriving DecidableEq, Repr

/-- What is said of a setting that cannot be what variables make of it. -/
def SettingError.message (error : SettingError) : String :=
  let key := " for key `" ++ error.key ++ "`"
  match error.fault with
  | .month (.notInteger text) =>
    "invalid type: string " ++ Text.quoted text ++ ", expected an integer" ++ key ++
      " in the environment"
  | .month (.negative n) =>
    s!"invalid type: 64-bit integer `{n}`, expected an unsigned 64 bit or less integer" ++ key ++
      " in the environment"
  | .month (.tooGreat n) =>
    s!"invalid type: 64-bit unsigned integer `{n}`, expected an unsigned 32 bit integer" ++ key
  | .container given expected =>
    "invalid type: " ++ (if given = .sequence then "sequence" else "map") ++ ", expected " ++
      expected ++ key

/-- What a variable makes of the setting of a name, if it is about it. -/
def given? (key : String) (entry : String × String) : Option Given :=
  match NamePath.ofName? entry.1 with
  | some ⟨name, steps⟩ =>
    if name = key then
      match steps with
      | [] => some (.literal (.ofText entry.2))
      | .entry _ :: _ => some .map
      | .item _ :: _ => some .sequence
    else none
  | none => none

/-- What variables make of the setting of a name; of several the last counts. -/
def lookup (key : String) (environment : List (String × String)) : Option Given :=
  (environment.filterMap (given? key)).getLast?

/-- A setting that is a text. -/
def textSetting (key standard : String) (environment : List (String × String)) :
    Except SettingError String :=
  match lookup key environment with
  | none => .ok standard
  | some (.literal l) => .ok l.asText
  | some given => .error ⟨key, .container given "a string"⟩

/-- A setting that is the number of a month. -/
def monthSetting (key : String) (standard : Nat) (environment : List (String × String)) :
    Except SettingError Nat :=
  match lookup key environment with
  | none => .ok standard
  | some (.literal l) => l.month.mapError (fun fault => ⟨key, .month fault⟩)
  | some given => .error ⟨key, .container given "an integer"⟩

/-- The settings that variables make, where those left out are as usual, unless a setting cannot be
what they make of it. -/
def ofVariables (environment : List (String × String)) : Except SettingError Settings := do
  let standard : Settings := {}
  return {
    appName := ← textSetting "app_name" standard.appName environment
    fiscalStartMonth := ← monthSetting "fiscal_start_month" standard.fiscalStartMonth environment
    displayDateFormat := ← textSetting "display_date_format" standard.displayDateFormat environment
    outputDir := ← textSetting "output_dir" standard.outputDir environment
    logLevel := ← textSetting "log_level" standard.logLevel environment }

/-- Whether the name of a variable has an index that no sequence has. -/
def hasImpossibleIndex (name : String) : Bool :=
  (NamePath.ofName? name).any NamePath.isImpossible

/-- The settings that variables make, where those left out are as usual. -/
def load (environment : List (String × String)) : Except LoadError Settings :=
  match (environment.map Prod.fst).find? hasImpossibleIndex with
  | some name => .error (.impossibleIndex name)
  | none => (ofVariables environment).mapError .setting

end Settings

end Posting
