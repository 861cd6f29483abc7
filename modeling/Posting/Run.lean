import Posting.Files.Access
import Posting.Settings
import Posting.Transaction.Codec

/-!
# Runs

A run reads a file of transactions, collects them in a batch and writes the batch file.  The profile
is checked first, then the destination, then the input is read; nothing is written unless the whole
batch stands.

* `load` reads a file of transactions.
* `run` is a whole run, and `Report` is what it tells when it succeeds.
* `RunError.causes` are the reasons of a failed run, each with the next one behind it.
-/

namespace Posting

open Calendar Files

/-- What a run is asked for. -/
structure Request where
  destination : String
  date : Date
  input : String
  output : Option String := none
  deriving DecidableEq, Repr

/-- What a run has done. -/
structure Report where
  destination : Destination
  output : String
  summary : Summary
  read : Nat
  deriving DecidableEq, Repr

/-- Why a run failed. -/
inductive RunError
  | refused (error : ExportError)
  | unreadable (path : String) (error : FileError)
  | malformed (path : String) (error : Json.Error)
  | unwritable (path : String) (error : FileError)
  deriving DecidableEq, Repr

namespace RunError

/-- What is said of a failed run. -/
def message : RunError → String
  | .refused error => "Export error: " ++ error.message
  | .unreadable path error =>
    "Failed to read transactions from " ++ path ++ ": " ++ error.message
  | .malformed path error => "Malformed transaction file " ++ path ++ ": " ++ error.message
  | .unwritable path error => "Failed to write batch file " ++ path ++ ": " ++ error.message

/-- What is said of the reasons of a failed run, from the run to the first cause. -/
def causes (error : RunError) : List String :=
  error.message ::
    match error with
    | .refused (.calendar cause) => [(ExportError.calendar cause).message, cause.message]
    | .refused cause => [cause.message]
    | .unreadable _ cause => [cause.message]
    | .malformed _ cause => [cause.message]
    | .unwritable _ cause => [cause.message]

end RunError

variable {m : Type → Type} [Monad m]

/-- The transactions of a file. -/
def load (access : Access m) (path : String) : ExceptT RunError m (List Transaction) := do
  match ← access.readText path with
  | .error error => throw (.unreadable path error)
  | .ok text =>
    match Transaction.fromJson text with
    | .ok transactions => return transactions
    | .error error => throw (.malformed path error)

/-- Writes a file and makes the directories above it that are missing. -/
def save (access : Access m) (path : String) (payload : Payload) : ExceptT RunError m Unit := do
  match parent? path with
  | none => pure ()
  | some parent =>
    if !parent.isEmpty then
      match ← access.makeDirectories parent with
      | .ok () => pure ()
      | .error error => throw (.unwritable parent error)
  match ← access.write path payload.text.toUTF8 with
  | .ok () => return ()
  | .error error => throw (.unwritable path error)

/-- A refused export as the end of a run. -/
def orRefuse {α : Type} (result : Except ExportError α) : ExceptT RunError m α :=
  match result with
  | .ok a => pure a
  | .error error => throw (.refused error)

/-- Collects the transactions of a file in a batch and writes the batch file. -/
def run (access : Access m) (settings : Settings) (request : Request) :
    ExceptT RunError m Report := do
  let profile ← orRefuse settings.profile.resolve
  let batch ← orRefuse (profile.batchNamed request.destination request.date)
  let transactions ← load access request.input
  let batch ←
    match batch.extend transactions with
    | (batch, none) => pure batch
    | (_, some error) => throw (.refused error)
  let output := request.output.getD (join settings.outputDir batch.fileName)
  save access output batch.render
  return ⟨batch.destination, output, batch.summary, transactions.length⟩

namespace Report

/-- The line that tells what a run has done. -/
def line (report : Report) : String :=
  s!"{report.summary.rows} rows ({report.read} read) written to {report.output}\n"

end Report

end Posting
