import Posting.Row

/-!
# Headings

A `Heading` is what a batch is stamped with: fiscal period, year and description.  The two journals
begin with the names of their columns and a row that shows the heading; a statement begins with the
names of its columns.
-/

namespace Posting

/-- What a batch is stamped with. -/
structure Heading where
  period : Nat
  year : Int
  description : String
  deriving DecidableEq, Repr

namespace Heading

def summaryRow (heading : Heading) : String :=
  Row.line
    [Row.cell "1", Row.cell "000000", Row.cell "00001", Row.cell "", Row.cell "GL", Row.cell "JE",
      Row.cell (String.ofList (Text.integer heading.year)),
      Row.cell (String.ofList (Text.padded 2 heading.period)), "0", Row.cell heading.description,
      Row.cell "00", "0", "0", "0", "2"]

/-- The names of the columns of the row that shows the heading. -/
def batchColumns : String :=
  Row.line
    (["RECTYPE", "BATCHID", "BTCHENTRY", "ORIGCOMP", "SRCELEDGER", "SRCETYPE", "FSCSYR", "FSCSPERD",
      "SWEDIT", "JRNLDESC", "REVPERD", "JRNLDR", "JRNLCR", "JRNLQTY", "SWBALANCE"].map Row.cell)

/-- The names of the columns of a journal. -/
def ledgerColumns : String :=
  Row.line
    (["RECTYPE", "BATCHNBR", "JOURNALID", "ACCTID", "TRANSAMT", "TRANSDESC", "TRANSREF",
      "TRANSDATE"].map Row.cell)

/-- The names of the columns of a journal with numbered rows. -/
def sequencedColumns : String :=
  Row.line
    (["RECTYPE", "BATCHNBR", "JOURNALID", "TRANSNBR", "ACCTID", "TRANSAMT", "TRANSDESC", "TRANSREF",
      "TRANSDATE"].map Row.cell)

/-- The names of the columns of a statement. -/
def statementColumns : String :=
  Row.line (["Amount", "Description", "Reference", "Date Entered"].map Row.cell)

end Heading

end Posting
