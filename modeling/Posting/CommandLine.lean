import Posting.Files.Tree
import Posting.Log.Filter
import Posting.Run
import Posting.Settings.VariablesFile

/-!
# The command line

`Arguments.parse` reads the arguments of the program: a destination, an input, and if one likes a
date and an output.  An option stands before its value or is joined to it, no option stands twice,
and no value that stands alone starts with a hyphen.

`execute` is the program: it adds the variables of a file to those that are set, reads the arguments,
loads the settings, chooses a filter for the log and makes the run.  It breaks off where no filter can
be chosen.
-/

namespace Posting

open Calendar Files

/-- The options that take a value. -/
inductive ValueOption
  | destination
  | date
  | input
  | output
  deriving DecidableEq, Repr

/-- The arguments of a run. -/
structure Arguments where
  destination : Option String := none
  date : Option Date := none
  input : Option String := none
  output : Option String := none
  deriving DecidableEq, Repr

/-- What the arguments ask for. -/
inductive Demand
  | run (destination : String) (date : Option Date) (input : String) (output : Option String)
  | help
  | version
  | misuse
  deriving DecidableEq, Repr

/-- An argument that is an option. -/
inductive Switch
  | value (option : ValueOption) (joined : Option String)
  | help
  | version
  | unknown
  deriving DecidableEq, Repr

namespace Arguments

/-- The option of a long name, with the value joined to it. -/
def longSwitch (name : String) (joined : Option String) : Switch :=
  match name, joined with
  | "destination", _ => .value .destination joined
  | "date", _ => .value .date joined
  | "input", _ => .value .input joined
  | "output", _ => .value .output joined
  | "help", none => .help
  | "version", none => .version
  | _, _ => .unknown

/-- The value joined to a letter, in front of which an equals sign may stand. -/
def joinedValue : List Char → Option String
  | [] => none
  | '=' :: cs => some (String.ofList cs)
  | cs => some (String.ofList cs)

/-- The option of a letter, with the value joined to it. -/
def shortSwitch (letter : Char) (rest : List Char) : Switch :=
  match letter with
  | 'd' => .value .destination (joinedValue rest)
  | 'i' => .value .input (joinedValue rest)
  | 'o' => .value .output (joinedValue rest)
  | 'h' => .help
  | 'V' => .version
  | _ => .unknown

/-- The option that an argument is. -/
def switch? (argument : String) : Option Switch :=
  match argument.toList with
  | '-' :: '-' :: name =>
    let short := name.takeWhile (· != '=')
    let joined :=
      match name.drop short.length with
      | _ :: value => some (String.ofList value)
      | [] => none
    some (longSwitch (String.ofList short) joined)
  | '-' :: letter :: rest => some (shortSwitch letter rest)
  | _ => none

/-- The arguments with the value of one more option, unless it stands twice or does not suit. -/
def set? (arguments : Arguments) (option : ValueOption) (value : String) : Option Arguments :=
  match option with
  | .destination =>
    if arguments.destination.isSome then none else some { arguments with destination := value }
  | .date =>
    match arguments.date, Date.read value with
    | none, .ok date => some { arguments with date := date }
    | _, _ => none
  | .input =>
    if arguments.input.isSome || value.isEmpty then none
    else some { arguments with input := value }
  | .output =>
    if arguments.output.isSome || value.isEmpty then none
    else some { arguments with output := value }

/-- What the arguments ask for that are read. -/
def demand (arguments : Arguments) : Demand :=
  match arguments.destination, arguments.input with
  | some destination, some input => .run destination arguments.date input arguments.output
  | _, _ => .misuse

/-- What the arguments ask for, of which some are read. -/
def parseFrom (arguments : Arguments) : List String → Demand
  | [] => arguments.demand
  | argument :: rest =>
    if argument = "--" then if rest.isEmpty then arguments.demand else .misuse
    else
      match switch? argument with
      | some .help => .help
      | some .version => .version
      | some (.value option (some value)) =>
        match arguments.set? option value with
        | some arguments => parseFrom arguments rest
        | none => .misuse
      | some (.value option none) =>
        match rest with
        | [] => .misuse
        | value :: rest =>
          if (switch? value).isSome then .misuse
          else
            match arguments.set? option value with
            | some arguments => parseFrom arguments rest
            | none => .misuse
      | _ => .misuse

/-- What the arguments ask for. -/
def parse (arguments : List String) : Demand :=
  parseFrom {} arguments

end Arguments

/-- What the program leaves behind. -/
structure Outcome where
  exitCode : Nat
  output : String := ""
  errors : String := ""
  deriving DecidableEq, Repr

namespace Outcome

/-- What a program leaves behind that breaks off. -/
def breakdown : Outcome where
  exitCode := 101

/-- A text below a mark, with its further lines as far to the right as the first. -/
def indented (mark indent text : String) : String :=
  mark ++ ("\n" ++ indent).intercalate (text.splitOn "\n")

/-- The reasons of a failure, numbered if there are several. -/
def causeLines : List String → List String
  | [cause] => [indented "    " "    " cause]
  | causes => causes.mapIdx (fun i cause => indented s!"    {i}: " "       " cause)

/-- What the program leaves behind when it fails: what it was about, and the reasons. -/
def failure (about : String) (causes : List String) : Outcome where
  exitCode := 1
  errors := "\n".intercalate (["Error: " ++ about, "", "Caused by:"] ++ causeLines causes) ++ "\n"

end Outcome

/-- How the program is called. -/
def usage : String :=
  "\n".intercalate
    ["Render accumulated transactions into a batch file", "",
      "Usage: ledger-export [OPTIONS] --destination <DESTINATION> --input <INPUT>", "", "Options:",
      "  -d, --destination <DESTINATION>  Destination format (general_ledger, sequenced_ledger, "
        ++ "policyholder_statement)",
      "      --date <DATE>                Run date fixing fiscal period and journal description "
        ++ "(YYYY-MM-DD, default today)",
      "  -i, --input <INPUT>              JSON array of transactions",
      "  -o, --output <OUTPUT>            Output file (default: "
        ++ "<output_dir>/<destination>_<year>_<period>.csv)",
      "  -h, --help                       Print help",
      "  -V, --version                    Print version", ""]

/-- The name of the file of variables. -/
def variablesFile : String :=
  ".env"

variable {m : Type → Type} [Monad m]

/-- The variables that are set, and those of the file of variables if there is one; none if the file
gives a variable a value that it cannot have. -/
def allVariables (access : Access m) (environment : List (String × String)) :
    m (Option (List (String × String))) := do
  match ← access.read variablesFile with
  | .ok bytes =>
    return Settings.VariablesFile.extend environment (Settings.VariablesFile.readable bytes)
  | .error _ => return some environment

/-- The program, called with arguments on a day, with all variables. -/
def executeWith (access : Access m) (environment : List (String × String)) (today : Date)
    (arguments : List String) : m Outcome := do
  match Arguments.parse arguments with
  | .help => return { exitCode := 0, output := usage }
  | .version => return { exitCode := 0, output := "ledger-export 0.1.0\n" }
  | .misuse => return { exitCode := 2, errors := "error: invalid arguments\n\n" ++ usage }
  | .run destination date input output =>
    match Settings.load environment with
    | .error (.impossibleIndex _) => return .breakdown
    | .error (.setting error) =>
      return .failure "failed to load export configuration" [error.message]
    | .ok settings =>
      if (Log.Filter.choose environment settings.logLevel).isOk then
        let request : Request := ⟨destination, date.getD today, input, output⟩
        match ← (run access settings request).run with
        | .ok report => return { exitCode := 0, output := report.line }
        | .error error => return .failure "export run failed" error.causes
      else return .breakdown

/-- The program, called with arguments on a day while variables are set. -/
def execute (access : Access m) (environment : List (String × String)) (today : Date)
    (arguments : List String) : m Outcome := do
  match ← allVariables access environment with
  | some environment => executeWith access environment today arguments
  | none => return .breakdown

end Posting
