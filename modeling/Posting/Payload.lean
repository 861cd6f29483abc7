import Posting.Destination
import Posting.Text.Lines

/-!
# Payloads

The text of a batch file, and reading it back: its rows, the fields of a row, and whether it ends as
it should.
-/

namespace Posting

/-- The text of a batch file. -/
structure Payload where
  text : String
  deriving DecidableEq, Repr

namespace Payload

def empty : Payload :=
  ⟨""⟩

def isEmpty (payload : Payload) : Bool :=
  payload.text.isEmpty

def contentType : String :=
  "text/csv"

/-- The rows that hold transactions, without their ends. -/
def rows (payload : Payload) (destination : Destination) : List String :=
  (Text.lines payload.text).drop destination.preambleLines

/-- Whether so many rows hold transactions. -/
def hasRows (payload : Payload) (destination : Destination) (expected : Nat) : Bool :=
  (payload.rows destination).length == expected

/-- Whether the text ends with one line feed and holds no carriage return. -/
def isWellTerminated (payload : Payload) : Bool :=
  let reversed := payload.text.toList.reverse
  reversed.head? == some '\n' && reversed.tail.head? != some '\n' && !reversed.contains '\r'

end Payload

namespace Row

/-- A text without the quotes at its two ends. -/
def stripQuotes (cs : List Char) : List Char :=
  ((cs.dropWhile (· == '"')).reverse.dropWhile (· == '"')).reverse

/-- The fields of a row, between its commas and without the quotes around them. -/
def fields (row : String) : List String :=
  (Text.split ',' row.toList).map (fun field => String.ofList (stripQuotes field))

end Row

end Posting
