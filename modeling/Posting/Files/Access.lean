import Posting.Files.Path

/-!
# Access to files

`Access` is what a program needs of the place where its files lie: reading a file, asking for a
directory, making one, and writing a file as a whole.  `readText` and `makeDirectories` are built on
it.  A `FileError` is why an operation failed, with the text and the number that the operating system
gives it.
-/

namespace Posting.Files

/-- Why a file operation failed. -/
inductive FileError
  | notFound
  | alreadyExists
  | notDirectory
  | isDirectory
  | nameTooLong
  | notText
  | nulByte
  | other (text : String) (number : Nat)
  deriving DecidableEq, Repr

/-- What is said of a failed file operation. -/
def FileError.message : FileError → String
  | .notFound => "No such file or directory (os error 2)"
  | .alreadyExists => "File exists (os error 17)"
  | .notDirectory => "Not a directory (os error 20)"
  | .isDirectory => "Is a directory (os error 21)"
  | .nameTooLong => "File name too long (os error 36)"
  | .notText => "stream did not contain valid UTF-8"
  | .nulByte => "file name contained an unexpected NUL byte"
  | .other text number => s!"{text} (os error {number})"

/-- The operations on files, in a monad that keeps them. -/
structure Access (m : Type → Type) where
  read : String → m (Except FileError ByteArray)
  isDirectory : String → m Bool
  makeDirectory : String → m (Except FileError Unit)
  write : String → ByteArray → m (Except FileError Unit)

namespace Access

variable {m : Type → Type} [Monad m]

/-- The text of a file. -/
def readText (access : Access m) (path : String) : m (Except FileError String) := do
  match ← access.read path with
  | .error error => return .error error
  | .ok bytes =>
    match String.fromUTF8? bytes with
    | some text => return .ok text
    | none => return .error .notText

/-- Makes the first directory of a list that can be made, or finds the first that exists; those before
it could not be made because it was missing, and are given back, the last one first. -/
def missingDirectories (access : Access m) :
    List String → List String → m (Except FileError (List String))
  | [], missing => return .ok missing
  | path :: above, missing => do
    match ← access.makeDirectory path with
    | .ok () => return .ok missing
    | .error .notFound => missingDirectories access above (path :: missing)
    | .error .alreadyExists =>
      if ← access.isDirectory path then return .ok missing else return .error .alreadyExists
    | .error error => return .error error

/-- Makes the directories of a list, the first one first. -/
def makeAll (access : Access m) : List String → m (Except FileError Unit)
  | [] => return .ok ()
  | path :: below => do
    match ← access.makeDirectory path with
    | .ok () => makeAll access below
    | .error .alreadyExists =>
      if ← access.isDirectory path then makeAll access below else return .error .alreadyExists
    | .error error => return .error error

/-- Makes a directory and those above it that are missing. -/
def makeDirectories (access : Access m) (path : String) : m (Except FileError Unit) := do
  match ← missingDirectories access (ancestors path) [] with
  | .ok missing => makeAll access missing
  | .error error => return .error error

end Access

end Posting.Files
