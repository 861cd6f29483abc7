import Posting.Text.Digits

/-!
# Names of variables as paths

The name of a variable that is about settings starts with `EXPORT_`, in any letter case.  What
follows is a path: a key, and behind it steps into a map or a sequence, each a dot and a name or an
index in brackets.  A name that is no path stands for itself as a key.

* `NamePath.ofName?` is the path that a name denotes.
* `NamePath.isImpossible` tells the paths with an index that no sequence has.
-/

namespace Posting.Settings

open Text

/-- A step from a container to one of its parts. -/
inductive Step
  | entry (name : String)
  | item (index : Int)
  deriving DecidableEq, Repr

/-- A key, and the steps behind it. -/
structure NamePath where
  key : String
  steps : List Step
  deriving DecidableEq, Repr

/-- What the names of all variables for settings begin with, in lower case. -/
def nameStart : String :=
  "export_"

/-- A letter in lower case.  Of the characters that are not ASCII only the sign of the kelvin has an
ASCII letter for it; the others cannot stand in a path and are kept. -/
def lowered (c : Char) : Char :=
  if c = Char.ofNat 0x212A then 'k' else c.toLower

/-- Whether a character may stand in a part of a path. -/
def isNameChar (c : Char) : Bool :=
  c.isAlphanum || c == '_' || c == '-' || c == ' '

/-- What is left of a text after the spaces and tabs at its start. -/
def skipSpaces (cs : List Char) : List Char :=
  cs.dropWhile (fun c => c == ' ' || c == '\t')

/-- An index of 64 bits and the bracket behind it, between which blanks may stand, and the rest of
the text. -/
def scanIndex? (cs : List Char) : Option (Int × List Char) :=
  let cs := skipSpaces cs
  let (negative, cs) :=
    match cs with
    | '-' :: rest => (true, rest)
    | _ => (false, cs)
  let run := cs.takeWhile Char.isDigit
  let n : Int := if negative then -(readDigits run : Int) else readDigits run
  match skipSpaces (cs.dropWhile Char.isDigit) with
  | ']' :: rest =>
    if !run.isEmpty ∧ -0x8000000000000000 ≤ n ∧ n < 0x8000000000000000 then some (n, rest) else none
  | _ => none

/-- The steps that a text is made of; it has no more characters than `bound`. -/
def scanSteps? : (bound : List Char) → List Char → Option (List Step)
  | _, [] => some []
  | _ :: bound, '.' :: rest =>
    let name := rest.takeWhile isNameChar
    if name.isEmpty then none
    else (scanSteps? bound (rest.dropWhile isNameChar)).map (.entry (String.ofList name) :: ·)
  | _ :: bound, '[' :: rest => do
    let (n, rest) ← scanIndex? rest
    let steps ← scanSteps? bound rest
    return .item n :: steps
  | _, _ => none

namespace NamePath

/-- The path that a text denotes. -/
def ofText (cs : List Char) : NamePath :=
  let key := cs.takeWhile isNameChar
  let rest := cs.dropWhile isNameChar
  match scanSteps? rest rest with
  | some steps => if key.isEmpty then ⟨String.ofList cs, []⟩ else ⟨String.ofList key, steps⟩
  | none => ⟨String.ofList cs, []⟩

/-- The path that the name of a variable denotes, if it is about settings. -/
def ofName? (name : String) : Option NamePath :=
  (nameStart.toList.isPrefixOf? (name.toList.map lowered)).map ofText

/-- More items than a sequence can have. -/
def tooManyItems : Int :=
  0x100000000000000

/-- Whether the path has an index that no sequence has. -/
def isImpossible (path : NamePath) : Bool :=
  path.steps.any fun
    | .entry _ => false
    | .item n => n < 0 || tooManyItems ≤ n

end NamePath

end Posting.Settings
