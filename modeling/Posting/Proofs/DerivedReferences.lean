import Mathlib.Logic.Basic
import Posting.Transaction

/-! # Derived references

A transaction without a reference of its own gets one that is made of the texts which identify its
policy, each of which may be empty.

* `Transaction.WellFormed` says what is asked of such a reference, given the texts: something stands
  in front, and a separator only where a name follows it.
* `Transaction.wellFormed_withSuffix_iff`: putting a name behind a text leaves the text in front as
  the only thing that may be missing.
* `Transaction.statementFront_ne_empty`: on a statement it never is.
* `Transaction.ledgerFront_eq_empty_iff`: in a ledger it is for a policy that is not a household's
  and has neither an account number nor a cost centre.

`Transaction.derived_references` puts these together. -/

namespace Posting.Transaction

variable {t : Transaction}

/-! ### The parts of a reference -/

/-- The name that a reference ends in: the insured person's, or that of a policy of another kind. -/
def nameBehind (t : Transaction) : String :=
  match t.policyType with
  | .household => t.name
  | .other => t.policyName

/-- What stands before the name in a ledger. -/
def ledgerFront (t : Transaction) : String :=
  match t.policyType with
  | .household => "MC"
  | .other => t.accountNumber ++ t.costCenter

/-- What stands before the name on a statement. -/
def statementFront (t : Transaction) : String :=
  match t.policyType with
  | .household => "MC " ++ t.householdId
  | .other => t.entityCode ++ " " ++ (t.accountNumber ++ t.costCenter)

/-- A reference made of a front part and a name is as it should be: neither it nor the front part is
empty, and a separator stands behind the front part exactly if there is a name to follow it. -/
structure WellFormed (front name reference : String) : Prop where
  ne_empty : reference ≠ ""
  front_ne_empty : front ≠ ""
  eq_front : name = "" → reference = front
  eq_joined : name ≠ "" → reference = front ++ " / " ++ name

theorem append_ne_empty_left {s : String} (h : s ≠ "") (s' : String) : s ++ s' ≠ "" :=
  fun hempty => h (String.append_eq_empty_iff.mp hempty).1

theorem withSuffix_empty (front : String) : withSuffix front "" = front := rfl

theorem withSuffix_of_ne_empty (front : String) {name : String} (h : name ≠ "") :
    withSuffix front name = front ++ " / " ++ name := by
  rw [withSuffix, if_neg (by rwa [String.isEmpty_iff])]

/-- **All that may be missing is the front part.** -/
theorem wellFormed_withSuffix_iff (front name : String) :
    WellFormed front name (withSuffix front name) ↔ front ≠ "" := by
  constructor
  · exact WellFormed.front_ne_empty
  · intro hfront
    refine ⟨?_, hfront, ?_, withSuffix_of_ne_empty front⟩
    · by_cases hname : name = ""
      · rwa [hname, withSuffix_empty]
      · rw [withSuffix_of_ne_empty front hname, String.append_assoc]
        exact append_ne_empty_left hfront _
    · rintro rfl
      exact withSuffix_empty front

/-! ### The two derivations -/

theorem ledgerReference_of_parts (hreference : t.reference = none) :
    t.ledgerReference = withSuffix t.ledgerFront t.nameBehind := by
  rw [ledgerReference, hreference, isHousehold, ledgerFront, nameBehind]
  cases t.policyType <;> rfl

theorem statementReference_of_parts (hreference : t.reference = none) :
    t.statementReference = withSuffix t.statementFront t.nameBehind := by
  rw [statementReference, hreference, isHousehold, statementFront, nameBehind]
  cases t.policyType <;> rfl

theorem statementFront_ne_empty (t : Transaction) : t.statementFront ≠ "" := by
  unfold statementFront
  cases t.policyType with
  | household => exact append_ne_empty_left (by decide) _
  | other =>
      intro hempty
      have hblank := (String.append_eq_empty_iff.mp (String.append_eq_empty_iff.mp hempty).1).2
      exact absurd hblank (by decide)

theorem ledgerFront_eq_empty_iff (t : Transaction) :
    t.ledgerFront = "" ↔ t.policyType = .other ∧ t.accountNumber = "" ∧ t.costCenter = "" := by
  unfold ledgerFront
  cases t.policyType with
  | household =>
      have hconstant : "MC" ≠ "" := by decide
      exact ⟨fun hempty => absurd hempty hconstant, nofun⟩
  | other => simp only [String.append_eq_empty_iff, true_and]

/-- **References that are made up.**  On a statement they are always as they should be.  In a ledger
they are unless the policy is not a household's and has neither an account number nor a cost centre;
then nothing stands before the name, so that the reference begins with the separator, or is empty
where the policy has no name. -/
theorem derived_references (hreference : t.reference = none) :
    WellFormed t.statementFront t.nameBehind t.statementReference ∧
      (WellFormed t.ledgerFront t.nameBehind t.ledgerReference ↔
        (t.policyType = .other → t.accountNumber ≠ "" ∨ t.costCenter ≠ "")) ∧
      (t.policyType = .other → t.accountNumber = "" → t.costCenter = "" →
        t.ledgerReference = if t.policyName = "" then "" else " / " ++ t.policyName) := by
  refine ⟨?_, ?_, ?_⟩
  · rw [statementReference_of_parts hreference, wellFormed_withSuffix_iff]
    exact t.statementFront_ne_empty
  · rw [ledgerReference_of_parts hreference, wellFormed_withSuffix_iff, Ne,
      ledgerFront_eq_empty_iff, not_and, not_and_or]
  · intro hkind hnumber hcenter
    have hfront : t.ledgerFront = "" := t.ledgerFront_eq_empty_iff.mpr ⟨hkind, hnumber, hcenter⟩
    have hname : t.nameBehind = t.policyName := by rw [nameBehind, hkind]
    rw [ledgerReference_of_parts hreference, hfront, hname]
    split
    next hempty => rw [hempty, withSuffix_empty]
    next hne => rw [withSuffix_of_ne_empty _ hne, String.empty_append]

/-- A policy of which only the name is known: the statement's reference has a blank before the
separator, the ledger's has nothing. -/
theorem derived_references_of_name_only :
    let t := { blank with policyName := "ghi3" }
    WellFormed " " "ghi3" t.statementReference ∧ ¬ WellFormed "" "ghi3" t.ledgerReference ∧
      t.ledgerReference = " / ghi3" := by
  intro t
  obtain ⟨hstatement, hledger, hsparse⟩ := derived_references (show t.reference = none from rfl)
  refine ⟨hstatement, fun h => ?_, hsparse rfl rfl rfl⟩
  exact (hledger.mp h rfl).elim (absurd rfl) (absurd rfl)

/-- Not every reference that a ledger makes up is as it should be: it begins with the separator for a
policy of which only the name is known. -/
theorem not_forall_wellFormed :
    ¬ ∀ t : Transaction, t.reference = none →
      WellFormed t.ledgerFront t.nameBehind t.ledgerReference ∧
        WellFormed t.statementFront t.nameBehind t.statementReference := by
  intro h
  have hledger := (h { blank with policyName := "ghi3" } rfl).1
  exact hledger.front_ne_empty rfl

end Posting.Transaction
