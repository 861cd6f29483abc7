import Posting.Json.Record
import Posting.Json.Writer
import Posting.Transaction

/-!
# The JSON form of transactions

Amounts are integers of minor units, dates are texts, and texts that may be absent are null or a
text.  `Transaction.fromJson` reads a file of transactions, which is an array of them, and
`Transaction.toJson` writes one.
-/

namespace Posting

open Calendar Json

/-- Amounts as integers. -/
def Amount.codec : Codec Amount :=
  .ofHead (fun a => .int a.minor) fun
    | .number (.integer n) =>
      match Amount.ofMinor? n with
      | some a => .ok a
      | none => .error (.outOfRange n "i64")
    | head => .error (.wrongKind head "i64")

/-- Dates as texts. -/
def Calendar.Date.codec : Codec Date :=
  (Codec.text "a formatted date string").refine Date.text
    (fun s => (Date.read s).mapError DateFault.message)

/-- The name of a kind of policy. -/
def PolicyType.name : PolicyType → String
  | .household => "household"
  | .other => "other"

/-- Kinds of policy as their names. -/
def PolicyType.codec : Codec PolicyType :=
  .choice name [("household", .household), ("other", .other)]

namespace Transaction

/-- The fields of a transaction, in their order. -/
def fields : List (RecordField Transaction) :=
  [⟨"account", .nullable .string, account, fun x t => { t with account := x }⟩,
    ⟨"amount", Amount.codec, amount, fun x t => { t with amount := x }⟩,
    ⟨"description", .string, description, fun x t => { t with description := x }⟩,
    ⟨"reference", .nullable .string, reference, fun x t => { t with reference := x }⟩,
    ⟨"date", Date.codec, date, fun x t => { t with date := x }⟩,
    ⟨"policy_type", PolicyType.codec, policyType, fun x t => { t with policyType := x }⟩,
    ⟨"household_id", .string, householdId, fun x t => { t with householdId := x }⟩,
    ⟨"entity_code", .string, entityCode, fun x t => { t with entityCode := x }⟩,
    ⟨"account_number", .string, accountNumber, fun x t => { t with accountNumber := x }⟩,
    ⟨"cost_center", .string, costCenter, fun x t => { t with costCenter := x }⟩,
    ⟨"policy_name", .string, policyName, fun x t => { t with policyName := x }⟩,
    ⟨"name", .string, name, fun x t => { t with name := x }⟩,
    ⟨"income_account", .nullable .string, incomeAccount, fun x t => { t with incomeAccount := x }⟩]

/-- Transactions as records, of which missing fields are blank. -/
def codec : Codec Transaction :=
  .record "struct Transaction" blank fields

/-- The transactions of a file. -/
def fromJson (text : String) : Except Json.Error (List Transaction) :=
  (Codec.list codec).read text

/-- The file of transactions. -/
def toJson (transactions : List Transaction) : String :=
  ((Codec.list codec).encode transactions).pretty

end Transaction

end Posting
