import Posting.Number.Binary64

/-!
# JSON values

A value is null, a truth value, a number, a text, an array or an object; the entries of an object
are kept in order.  Numbers are integers of 64 bits, signed or not, or binary floating-point
numbers.

`Value.head` is what the beginning of a value tells: a scalar with its content, or the kind of a
container.  `Value.ofEntries` is the object of a list of entries, of which the last with a name
counts, in the order of the names.
-/

namespace Posting.Json

open Posting.Number

/-- A JSON number. -/
inductive Numeral
  | integer (n : Int)
  | float (x : Binary64)
  deriving DecidableEq, Repr

/-- A JSON value. -/
inductive Value
  | null
  | bool (b : Bool)
  | number (n : Numeral)
  | string (s : String)
  | array (items : List Value)
  | object (entries : List (String × Value))
  deriving Inhabited

/-- What the beginning of a value tells. -/
inductive Head
  | null
  | bool (b : Bool)
  | number (n : Numeral)
  | string (s : String)
  | array
  | object
  deriving DecidableEq, Repr

namespace Value

/-- What the beginning of the value tells. -/
def head : Value → Head
  | .null => .null
  | .bool b => .bool b
  | .number n => .number n
  | .string s => .string s
  | .array _ => .array
  | .object _ => .object

def int (n : Int) : Value :=
  .number (.integer n)

/-- Entries in the order of their names with one more, which takes the place of one of its name. -/
def insertEntry (entry : String × Value) : List (String × Value) → List (String × Value)
  | [] => [entry]
  | first :: rest =>
    if entry.1 < first.1 then entry :: first :: rest
    else if entry.1 = first.1 then entry :: rest
    else first :: insertEntry entry rest

/-- The object of a list of entries, in the order of their names; of several entries with one name
the last counts. -/
def ofEntries (entries : List (String × Value)) : Value :=
  .object (entries.foldl (fun sorted entry => insertEntry entry sorted) [])

/-- The entry of an object with a name. -/
def get? (name : String) : Value → Option Value
  | .object entries => entries.lookup name
  | _ => none

end Value

end Posting.Json
