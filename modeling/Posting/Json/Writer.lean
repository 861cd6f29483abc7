import Posting.Json.Value
import Posting.Number.Shortest

/-!
# Writing JSON values

`Value.compact` writes a value without space; `Value.pretty` puts every item and every entry on a
line of its own, two spaces further to the right than the container.  In strings the quote, the
backslash and the control characters below the space are escaped, and nothing else.
-/

namespace Posting.Json

open Text

/-- A character of a string. -/
def escape (c : Char) : List Char :=
  if c = '"' then ['\\', '"']
  else if c = '\\' then ['\\', '\\']
  else if c = Char.ofNat 8 then ['\\', 'b']
  else if c = Char.ofNat 12 then ['\\', 'f']
  else if c = '\n' then ['\\', 'n']
  else if c = '\r' then ['\\', 'r']
  else if c = '\t' then ['\\', 't']
  else if c.toNat < 0x20 then '\\' :: 'u' :: (hexDigits c.toNat).leftpad 4 '0'
  else [c]

/-- A string between its quotes. -/
def stringText (s : String) : List Char :=
  '"' :: s.toList.flatMap escape ++ ['"']

def Numeral.text : Numeral → List Char
  | .integer n => Text.integer n
  | .float x => x.exact.toList

/-- How the parts of a container are set apart. -/
structure Spacing where
  /-- What precedes an item, given how deep it lies. -/
  beforeItem : Nat → List Char
  afterColon : List Char

/-- No space at all. -/
def Spacing.none : Spacing :=
  ⟨fun _ => [], []⟩

/-- A line for each item, two spaces for each level, and a space behind each colon. -/
def Spacing.indented : Spacing :=
  ⟨fun depth => '\n' :: List.replicate (2 * depth) ' ', [' ']⟩

/-- The brackets of an object. -/
def objectBrackets : Char × Char :=
  (Char.ofNat 0x7B, Char.ofNat 0x7D)

mutual

/-- A value that lies so deep. -/
def Value.write (spacing : Spacing) (depth : Nat) : Value → List Char
  | .null => "null".toList
  | .bool b => (if b then "true" else "false").toList
  | .number n => n.text
  | .string s => stringText s
  | .array [] => ['[', ']']
  | .array (item :: items) =>
    '[' :: spacing.beforeItem (depth + 1) ++ item.write spacing (depth + 1) ++
      writeItems spacing (depth + 1) items ++ spacing.beforeItem depth ++ [']']
  | .object [] => [objectBrackets.1, objectBrackets.2]
  | .object ((name, value) :: entries) =>
    objectBrackets.1 :: spacing.beforeItem (depth + 1) ++ stringText name ++
      ':' :: spacing.afterColon ++ value.write spacing (depth + 1) ++
      writeEntries spacing (depth + 1) entries ++ spacing.beforeItem depth ++ [objectBrackets.2]

/-- The items of an array after the first. -/
def writeItems (spacing : Spacing) (depth : Nat) : List Value → List Char
  | [] => []
  | item :: items =>
    ',' :: spacing.beforeItem depth ++ item.write spacing depth ++ writeItems spacing depth items

/-- The entries of an object after the first. -/
def writeEntries (spacing : Spacing) (depth : Nat) : List (String × Value) → List Char
  | [] => []
  | (name, value) :: entries =>
    ',' :: spacing.beforeItem depth ++ stringText name ++ ':' :: spacing.afterColon ++
      value.write spacing depth ++ writeEntries spacing depth entries

end

def Value.compact (value : Value) : String :=
  String.ofList (value.write .none 0)

/-- The value with a line for each item and entry. -/
def Value.pretty (value : Value) : String :=
  String.ofList (value.write .indented 0)

end Posting.Json
