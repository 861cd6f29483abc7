import Posting.Amount
import Posting.Calendar.DateText

/-!
# Transactions

A transaction is one line that is to be posted: an amount, a date, a description, and the texts that
identify the policy it belongs to.  An account or a reference of its own takes the place of the one
that a layout would derive from those texts.
-/

namespace Posting

open Calendar

/-- The kind of policy that a transaction belongs to. -/
inductive PolicyType
  | household
  | other
  deriving DecidableEq, Repr

/-- One line that is to be posted. -/
structure Transaction where
  account : Option String := none
  amount : Amount := .zero
  description : String := ""
  reference : Option String := none
  date : Date := .epoch
  policyType : PolicyType := .other
  householdId : String := ""
  entityCode : String := ""
  accountNumber : String := ""
  costCenter : String := ""
  policyName : String := ""
  name : String := ""
  incomeAccount : Option String := none
  deriving DecidableEq, Repr

namespace Transaction

def blank : Transaction :=
  {}

instance : Inhabited Transaction :=
  ⟨blank⟩

/-- A transaction of an amount, with a description and a date. -/
def new (amount : Amount) (description : String) (date : Date) : Transaction :=
  { amount, description, date }

/-- Whether batches take the transaction; they drop those without an amount. -/
def isExportable (t : Transaction) : Bool :=
  !t.amount.isZero

/-- Whether the transaction belongs to a household policy. -/
def isHousehold (t : Transaction) : Bool :=
  t.policyType == .household

/-- The account number with the cost centre behind it. -/
def accountKey (t : Transaction) : String :=
  t.accountNumber ++ t.costCenter

/-- A text with a slash and a suffix behind it, unless the suffix is empty. -/
def withSuffix (base suffix : String) : String :=
  if suffix.isEmpty then base else base ++ " / " ++ suffix

/-- The account that the ledger shows: the transaction's own, else the household or the entity. -/
def ledgerAccount (t : Transaction) : String :=
  t.account.getD (if t.isHousehold then t.householdId else t.entityCode)

/-- The reference that the ledger shows: the transaction's own, else one made of the insured name of
a household policy, or of the account key and the policy name of another. -/
def ledgerReference (t : Transaction) : String :=
  t.reference.getD
    (if t.isHousehold then withSuffix "MC" t.name else withSuffix t.accountKey t.policyName)

/-- The reference that a statement shows: the ledger's, with the household or the entity added. -/
def statementReference (t : Transaction) : String :=
  t.reference.getD
    (if t.isHousehold then withSuffix ("MC " ++ t.householdId) t.name
    else withSuffix (t.entityCode ++ " " ++ t.accountKey) t.policyName)

end Transaction

end Posting
