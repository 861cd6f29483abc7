import Posting.Log.Directive
import Posting.Settings.VariablesFile
import Posting.Text.Lines

/-!
# Filters for the log

A filter is a list of directives, between which commas stand.  It is taken from a variable of its own
if that is set to a filter, otherwise from the level of the settings, and if that is no filter either
it lets information and what is graver through.

* `Filter.read` is the filter that a text denotes, or why it denotes none.
* `Filter.choose` is the filter for the log of a run.
-/

namespace Posting.Log

open Text

/-- What goes into the log; if there is no directive, errors do. -/
abbrev Filter :=
  List Directive

/-- The variable whose filter comes before the level of the settings. -/
def filterVariable : String :=
  "RUST_LOG"

namespace Filter

def read (text : String) : Except DirectiveFault Filter :=
  ((split ',' text.toList).filter (!·.isEmpty)).mapM Directive.read

/-- The filter if nothing else is asked for. -/
def standard : Filter :=
  [{ level := .info }]

/-- The filter that a text denotes, or another one if the text is malformed. -/
def readOr (text : String) (other : Except DirectiveFault Filter) : Except DirectiveFault Filter :=
  match read text with
  | .error .malformed => other
  | result => result

/-- The filter for the log of a run, given the variables that are set and the level of the settings.
A text that would have to be cut inside a character leaves none. -/
def choose (environment : List (String × String)) (level : String) :
    Except DirectiveFault Filter :=
  let ofLevel := readOr level (.ok standard)
  match Settings.VariablesFile.value? environment filterVariable.toList with
  | some text => readOr (String.ofList text) ofLevel
  | none => ofLevel

end Filter

end Posting.Log
