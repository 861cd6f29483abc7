import Posting.Json.Scan

/-!
# Reading JSON values

`Value.read` reads a text as one value, with its objects in the order of their names and with the
last of several entries of one name.
-/

namespace Posting.Json

mutual

/-- The value at the front of a text. -/
def scanValueWithin : Nat → Scanner Value
  | 0, _ => refuse .endInValue
  | fuel + 1, cs => do
    let (head, rest) ← scanHead cs
    match head with
    | .null => .ok (.null, rest)
    | .bool b => .ok (.bool b, rest)
    | .number n => .ok (.number n, rest)
    | .string s => .ok (.string s, rest)
    | .array =>
      let (items, rest) ← scanItemsWithin fuel true rest
      .ok (.array items, rest)
    | .object =>
      let (entries, rest) ← scanEntriesWithin fuel true rest
      .ok (.ofEntries entries, rest)

/-- The items of an array, of which some are read unless `first`, up to the bracket that closes
it. -/
def scanItemsWithin : Nat → Bool → Scanner (List Value)
  | 0, _, _ => refuse .endInArray
  | fuel + 1, first, cs => do
    let (more, rest) ← nextItem first cs
    if more then
      let (item, rest) ← scanValueWithin fuel rest
      let (items, rest) ← scanItemsWithin fuel false rest
      .ok (item :: items, rest)
    else
      let rest ← closeArray rest
      .ok ([], rest)

/-- The entries of an object, of which some are read unless `first`, up to the bracket that closes
it. -/
def scanEntriesWithin : Nat → Bool → Scanner (List (String × Value))
  | 0, _, _ => refuse .endInObject
  | fuel + 1, first, cs => do
    let (name?, rest) ← nextName first cs
    match name? with
    | none => .ok ([], rest)
    | some name =>
      let rest ← scanColon rest
      let (value, rest) ← scanValueWithin fuel rest
      let (entries, rest) ← scanEntriesWithin fuel false rest
      .ok ((name, value) :: entries, rest)

end

/-- The value at the front of a text. -/
def scanValue : Scanner Value := fun cs =>
  scanValueWithin (2 * cs.length + 2) cs

/-- What a scanner makes of a whole text, behind which nothing but space may follow. -/
def readWith {α : Type} (scan : Scanner α) (text : String) : Except Error α := do
  let (a, rest) ← scan text.toList
  if (skipSpace rest).isEmpty then .ok a else refuse .trailingText

/-- The value that a text denotes. -/
def Value.read (text : String) : Except Error Value :=
  readWith scanValue text

end Posting.Json
