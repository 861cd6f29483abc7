import Posting.Profile

/-!
# Sample records

Dates, profiles and transactions to try batches on.
-/

namespace Posting.Sample

open Calendar

/-- A date to run an export on. -/
def runDate : Date :=
  ⟨2020, 9, 30, by decide⟩

def transactionDate : Date :=
  ⟨2020, 9, 15, by decide⟩

/-- The profile of an office with the calendar year. -/
def standard : Profile :=
  {}

/-- The profile of an office whose fiscal year starts in July. -/
def july : Profile :=
  { fiscalStartMonth := 7 }

/-- A transaction to change one field of. -/
def transaction : Transaction where
  amount := ⟨100, by decide, by decide⟩
  description := "Test transaction"
  date := transactionDate
  entityCode := "ent1"
  accountNumber := "acct1"
  costCenter := "cc1"

/-- A transaction made one of a household. -/
def ofHousehold (t : Transaction) (id : String) : Transaction :=
  { t with policyType := .household, householdId := id }

/-- The premium of a household policy. -/
def householdPremium : Transaction where
  amount := ⟨150, by decide, by decide⟩
  description := "Household premium"
  date := transactionDate
  policyType := .household
  householdId := "mno5"
  name := "stu7"

/-- A refund on a commercial policy. -/
def commercialClaim : Transaction where
  amount := ⟨-2500, by decide, by decide⟩
  description := "Commercial claim"
  date := transactionDate
  entityCode := "jkl4"
  accountNumber := "abc1"
  costCenter := "def2"
  policyName := "ghi3"

/-- A transaction without an amount, which batches drop. -/
def zeroAdjustment : Transaction where
  description := "Zero adjustment"
  date := transactionDate
  entityCode := "jkl4"

/-- The three transactions of this module that differ in how they are posted. -/
def mixedSet : List Transaction :=
  [householdPremium, zeroAdjustment, commercialClaim]

end Posting.Sample
