import Posting.Calendar.Pattern
import Posting.Text.Truncation
import Posting.Transaction

/-!
# Rows of a batch file

A row is a list of cells with commas between and a line feed behind.  Texts stand between double
quotes, and nothing in them is escaped; amounts and counters stand without.

* `Row.ledger` and `Row.sequenced` are the rows of a transaction in the general ledger's journals,
  `Row.statement` that in a statement.
* Journals cut a description at `descriptionWidth` characters.
* `sequenceNumber` is twenty times the row's place, in ten digits as long as they suffice.
-/

namespace Posting

open Calendar

/-- The most characters of a description that a journal shows. -/
def descriptionWidth : Nat :=
  60

/-- The distance between the numbers of neighbouring rows. -/
def sequenceStep : Nat :=
  20

/-- The least number of digits in the number of a row. -/
def sequenceWidth : Nat :=
  10

/-- The most rows that can be numbered. -/
def maxSequencedRows : Nat :=
  499999999

/-- The number of the row at a place, counted from 1. -/
def sequenceNumber (place : Nat) : String :=
  String.ofList (Text.padded sequenceWidth (place * sequenceStep))

namespace Row

/-- A text between double quotes. -/
def cell (text : String) : String :=
  "\"" ++ text ++ "\""

/-- Cells with commas between and a line feed behind. -/
def line (cells : List String) : String :=
  ",".intercalate cells ++ "\n"

/-- The cells that all transactions of a journal begin with. -/
def leader : List String :=
  [cell "2", cell "000000", cell "00001"]

/-- The row of a transaction in the general ledger's journal. -/
def ledger (t : Transaction) : String :=
  line (leader ++
    [cell t.ledgerAccount, t.amount.exportText, cell (Text.truncate descriptionWidth t.description),
      cell t.ledgerReference, cell t.date.compact])

/-- The row of a transaction in the journal with numbered rows, at a place counted from 1. It shows
only an account and a reference of the transaction's own. -/
def sequenced (place : Nat) (t : Transaction) : String :=
  line (leader ++
    [cell (sequenceNumber place), cell (t.account.getD ""), t.amount.exportText,
      cell (Text.truncate descriptionWidth t.description), cell (t.reference.getD ""),
      cell t.date.compact])

/-- The row of a transaction in a statement. -/
def statement (format : DisplayFormat) (t : Transaction) : String :=
  line [t.amount.exportText, cell t.description, cell t.statementReference,
    cell (format.write t.date)]

end Row

end Posting
