import Posting.Settings.Literal
import Posting.Text.Characters

/-!
# Directives for the log

A directive says what goes into the log.  It is a level, or a target with a level behind an equals
sign; a span in brackets may stand behind the target or for it, with a field in braces at the end
of its name.  What has no level is logged at all levels.

A directive is looked through without the blanks at its two ends, but its parts are cut out of the
whole text, as many bytes behind its start as they lie behind the first character that is no blank.
No cut goes through a character.

* `cut` is the part of a text between two distances from its start.
* `Directive.read` is the directive that a text denotes, or why it denotes none.
-/

namespace Posting.Log

open Text

/-- The least weight of what is logged, or that nothing is. -/
inductive Level
  | off
  | error
  | warn
  | info
  | debug
  | trace
  deriving DecidableEq, Repr

/-- What goes into the log. -/
structure Directive where
  target : Option String := none
  span : Option String := none
  field : Option String := none
  level : Level := .trace
  deriving DecidableEq, Repr

/-- Why a text is no directive. -/
inductive DirectiveFault
  | malformed
  /-- A part of the text begins or ends inside a character. -/
  | brokenCharacter
  deriving DecidableEq, Repr

/-! ### Cuts -/

/-- The number of bytes of a text. -/
def byteCount (cs : List Char) : Nat :=
  cs.foldr (fun c bytes => c.utf8Size + bytes) 0

/-- A text taken apart behind its first bytes, unless they end inside a character. -/
def splitBytes? : Nat → List Char → Option (List Char × List Char)
  | 0, cs => some ([], cs)
  | _ + 1, [] => none
  | n + 1, c :: cs =>
    if c.utf8Size ≤ n + 1 then
      (splitBytes? (n + 1 - c.utf8Size) cs).map fun (front, rest) => (c :: front, rest)
    else none

/-- What a text has behind its first bytes. -/
def cutFrom (start : Nat) (text : List Char) : Except DirectiveFault (List Char) :=
  match splitBytes? start text with
  | some (_, rest) => .ok rest
  | none => .error .brokenCharacter

/-- The part of a text between two distances from its start. -/
def cut (start stop : Nat) (text : List Char) : Except DirectiveFault (List Char) := do
  match splitBytes? (stop - start) (← cutFrom start text) with
  | some (front, _) => .ok front
  | none => .error .brokenCharacter

/-! ### Levels -/

/-- The level of a name, in any letter case. -/
def Level.ofName? (name : String) : Option Level :=
  match name.map Char.toLower with
  | "off" => some .off
  | "error" => some .error
  | "warn" => some .warn
  | "info" => some .info
  | "debug" => some .debug
  | "trace" => some .trace
  | _ => none

/-- The level of a number. -/
def Level.ofNumber? : Nat → Option Level
  | 0 => some .off
  | 1 => some .error
  | 2 => some .warn
  | 3 => some .info
  | 4 => some .debug
  | 5 => some .trace
  | _ => none

/-- The level that a text denotes, which is a name or a number. -/
def Level.ofText? (cs : List Char) : Option Level :=
  let run := if cs.head? = some '+' then cs.tail else cs
  if !run.isEmpty ∧ run.all Char.isDigit then Level.ofNumber? (readDigits run)
  else Level.ofName? (String.ofList cs)

/-! ### Fields -/

/-- What is left of a pattern behind a set of characters in brackets, whose first character may be a
closing bracket. -/
def skipSet? (cs : List Char) : Option (List Char) :=
  let cs := if cs.head? = some '^' then cs.tail else cs
  match (cs.drop 1).dropWhile (· != ']') with
  | _ :: rest => some rest
  | [] => none

/-- Whether what is left of a pattern is well formed, while groups are open and there is or is not
something to repeat.  It has no more characters than `bound`. -/
def isPatternFrom : (bound : List Char) → (groups : Nat) → (item : Bool) → List Char → Bool
  | _, groups, _, [] => groups == 0
  | [], _, _, _ => false
  | _ :: bound, groups, item, c :: rest =>
    if c = '\\' then !rest.isEmpty && isPatternFrom bound groups true (rest.drop 1)
    else if c = '(' then
      let rest := if rest.head? = some '?' then rest.tail else rest
      isPatternFrom bound (groups + 1) false rest
    else if c = ')' then groups != 0 && isPatternFrom bound (groups - 1) true rest
    else if c = '[' then
      match skipSet? rest with
      | some rest => isPatternFrom bound groups true rest
      | none => false
    else if c = '|' then isPatternFrom bound groups false rest
    else if c = '*' ∨ c = '+' ∨ c = '?' then item && isPatternFrom bound groups true rest
    else c != Char.ofNat 0x7B && isPatternFrom bound groups true rest

/-- Whether a text is a pattern: its brackets come in pairs, nothing is repeated where nothing stands,
and a character stands behind each backslash.  A repetition by numbers cannot stand in a field. -/
def isPattern (cs : List Char) : Bool :=
  isPatternFrom cs 0 false cs

/-- Whether a text is a field: a name, behind which an equals sign and a value may stand.  A value is
a number or a pattern. -/
def isField (cs : List Char) : Bool :=
  !cs.isEmpty &&
    match cs.dropWhile (· != '=') with
    | [] => true
    | _ :: rest =>
      let value := rest.takeWhile (· != '=')
      (Settings.float? value).isSome || isPattern value

/-! ### Directives -/

namespace Directive

/-- A directive with the level at the end of a text. -/
def readLevel (text : List Char) (d : Directive) (start : Nat) :
    Except DirectiveFault Directive := do
  let name ← cutFrom start text
  if name.isEmpty then return d
  match Level.ofText? name with
  | some level => return { d with level }
  | none => throw .malformed

/-- A directive with what stands behind its span. -/
def readEnd (text : List Char) (d : Directive) (start : Nat) :
    List Char → Except DirectiveFault Directive
  | [] => .ok d
  | '=' :: _ => readLevel text d (start + 1)
  | _ => .error .malformed

/-- A directive with a field and what stands behind it. -/
def readField (text : List Char) (d : Directive) (start : Nat) (cs : List Char) :
    Except DirectiveFault Directive := do
  let front := cs.takeWhile (· != Char.ofNat 0x7D)
  match cs.drop front.length with
  | [] => throw .malformed
  | _ :: rest =>
    let stop := start + byteCount front
    let field ← cut start stop text
    if !isField field then throw .malformed
    match rest with
    | ']' :: rest => readEnd text { d with field := String.ofList field } (stop + 2) rest
    | _ => throw .malformed

/-- A directive with a span and what stands behind it. -/
def readSpan (text : List Char) (d : Directive) (start : Nat) (cs : List Char) :
    Except DirectiveFault Directive := do
  let front := cs.takeWhile (fun c => c != ']' && c != Char.ofNat 0x7B)
  match cs.drop front.length with
  | [] => throw .malformed
  | c :: rest =>
    let stop := start + byteCount front
    let name ← cut start stop text
    if c = ']' then readEnd text { d with span := String.ofList name } (stop + 1) rest
    else
      let span := if name.isEmpty then none else some (String.ofList name)
      readField text { d with span } (stop + 1) rest

/-- Whether a target or a level may start with a character. -/
def isStart (c : Char) : Bool :=
  isAlphanumeric c || c == '-' || c == ':' || c == '_'

def read (text : List Char) : Except DirectiveFault Directive := do
  match dropTrailingBlanks (skipBlanks text) with
  | [] => throw .malformed
  | c :: rest =>
    if c = '[' then readSpan text {} 1 rest
    else if !isStart c then throw .malformed
    else
      let front := c :: rest.takeWhile (fun c => c != '=' && c != '[')
      let stop := byteCount front
      match (c :: rest).drop front.length with
      | [] =>
        match Level.ofText? text with
        | some level => return { level }
        | none => return { target := String.ofList text }
      | c :: rest =>
        let target ← cut 0 stop text
        let d : Directive := { target := String.ofList target }
        if c = '=' then readLevel text d (stop + 1) else readSpan text d (stop + 1) rest

end Directive

end Posting.Log
