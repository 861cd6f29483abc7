import Posting.CommandLine
import Std.Time.Zoned

/-!
# The program

Runs the command line on the files, the variables and the day of the system.
-/

namespace Posting

open Calendar Files

/-- A fault of the system by its number, which some operations give with its sign turned. -/
def Files.FileError.ofNumber (number : Nat) (text : String) : FileError :=
  match (if number < 0x80000000 then number else 0x100000000 - number) with
  | 2 => .notFound
  | 17 => .alreadyExists
  | 20 => .notDirectory
  | 21 => .isDirectory
  | 36 => .nameTooLong
  | number => .other text number

/-- A fault of the system. -/
def Files.FileError.ofSystem (error : IO.Error) : FileError :=
  match error with
  | .alreadyExists _ number text | .otherError number text | .resourceBusy number text
  | .resourceVanished number text | .unsupportedOperation number text | .hardwareFault number text
  | .unsatisfiedConstraints number text | .illegalOperation number text
  | .protocolError number text | .timeExpired number text | .interrupted _ number text
  | .noFileOrDirectory _ number text | .invalidArgument _ number text
  | .permissionDenied _ number text | .resourceExhausted _ number text
  | .inappropriateType _ number text | .noSuchThing _ number text =>
    .ofNumber number.toNat text
  | .unexpectedEof => .other "unexpected end of file" 0
  | .userError text => .other text 0

/-- What an action on the file at a path gives, or the fault of the system. -/
def attempt {α : Type} (path : String) (action : IO α) : BaseIO (Except FileError α) := do
  if path.toList.contains (Char.ofNat 0) then return .error .nulByte
  match ← action.toBaseIO with
  | .ok a => return .ok a
  | .error error => return .error (.ofSystem error)

/-- The file operations of the system. -/
def systemAccess : Access BaseIO where
  read path := attempt path (IO.FS.readBinFile path)
  isDirectory path := (⟨path, "."⟩ : IO.FS.DirEntry).path.isDir
  makeDirectory path := attempt path (IO.FS.createDir path)
  write path bytes := attempt path (IO.FS.writeBinFile path bytes)

/-- The variable that a text with an equals sign sets. -/
def readVariable? (text : List Char) : Option (String × String) :=
  match text.dropWhile (· != '=') with
  | _ :: value => some (String.ofList (text.takeWhile (· != '=')), String.ofList value)
  | [] => none

/-- The variables that are set. -/
def systemVariables : BaseIO (List (String × String)) := do
  match ← (IO.FS.readBinFile "/proc/self/environ").toBaseIO with
  | .ok bytes =>
    let text := (String.fromUTF8? bytes).getD ""
    return (Text.split (Char.ofNat 0) text.toList).filterMap readVariable?
  | .error _ => return []

/-- The day of the system. -/
def systemDate : BaseIO Date := do
  match ← Std.Time.PlainDate.now.toBaseIO with
  | .ok d => return (Date.of? d.year d.month.val.toNat d.day.val.toNat).getD .epoch
  | .error _ => return .epoch

end Posting

/-- Runs the command line. -/
def main (arguments : List String) : IO UInt32 := do
  let environment ← Posting.systemVariables
  let today ← Posting.systemDate
  let outcome ← (Posting.execute Posting.systemAccess environment today arguments : BaseIO _)
  IO.print outcome.output
  IO.eprint outcome.errors
  return UInt32.ofNat outcome.exitCode
