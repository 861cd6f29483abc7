import Posting.Text.Characters
import Posting.Text.Digits

/-!
# Destinations

The three layouts of batch files: a general ledger's journal, the same with numbered rows, and a
statement for a policyholder.  `Destination.parse?` knows each by its name and by a short one, in
any letter case and with blanks around it.
-/

namespace Posting

/-- The layout of a batch file. -/
inductive Destination
  | generalLedger
  | sequencedLedger
  | policyholderStatement
  deriving DecidableEq, Repr

namespace Destination

def all : List Destination :=
  [.generalLedger, .sequencedLedger, .policyholderStatement]

def name : Destination → String
  | .generalLedger => "general_ledger"
  | .sequencedLedger => "sequenced_ledger"
  | .policyholderStatement => "policyholder_statement"

def shortName : Destination → String
  | .generalLedger => "gl"
  | .sequencedLedger => "gl_sequenced"
  | .policyholderStatement => "statement"

/-- Whether the file is a journal for the general ledger. -/
def isLedger : Destination → Bool
  | .generalLedger | .sequencedLedger => true
  | .policyholderStatement => false

/-- The name of the batch file of a year and a period. -/
def fileName (destination : Destination) (year : Int) (period : Nat) : String :=
  destination.name ++ "_" ++ String.ofList (Text.integer year) ++ "_" ++
    String.ofList (Text.padded 2 period) ++ ".csv"

/-- The destination that a text names. -/
def parse? (text : String) : Option Destination :=
  let key := (Text.trim text).map Char.toLower
  all.find? (fun destination => key == destination.name || key == destination.shortName)

/-- The number of lines before the first transaction in the file of a destination. -/
def preambleLines (destination : Destination) : Nat :=
  if destination.isLedger then 3 else 1

end Destination

end Posting
