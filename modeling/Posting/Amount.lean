import Posting.Number.Decimal

/-!
# Amounts

A signed amount in minor currency units, as held in a 64-bit word, seen from the policy's side.
The ledger's side is the opposite number, which is what batch files show (`exportText`).
-/

namespace Posting

open Number

/-- A signed amount in minor units that fits a 64-bit word. -/
structure Amount where
  minor : Int
  lower : -0x8000000000000000 ≤ minor := by decide
  upper : minor < 0x8000000000000000 := by decide
  deriving DecidableEq, Repr

namespace Amount

def zero : Amount :=
  ⟨0, by decide, by decide⟩

instance : Inhabited Amount :=
  ⟨zero⟩

/-- The amount of so many minor units, if a 64-bit word holds it. -/
def ofMinor? (minor : Int) : Option Amount :=
  if h : -0x8000000000000000 ≤ minor ∧ minor < 0x8000000000000000 then some ⟨minor, h.1, h.2⟩
  else none

theorem ofMinor?_eq_some_iff {minor : Int} {a : Amount} :
    ofMinor? minor = some a ↔ minor = a.minor := by
  constructor
  · intro h
    unfold ofMinor? at h
    split at h
    · cases h
      rfl
    · cases h
  · rintro rfl
    exact dif_pos ⟨a.lower, a.upper⟩

def isZero (a : Amount) : Bool :=
  a.minor == 0

def isNegative (a : Amount) : Bool :=
  decide (a.minor < 0)

theorem natAbs_lt (a : Amount) : a.minor.natAbs < 0x1000000000000000000000000 := by
  have := a.lower
  have := a.upper
  omega

/-- The amount in major units, with two places. -/
def toDecimal (a : Amount) : Decimal :=
  .ofParts a.isNegative a.minor.natAbs 2 a.natAbs_lt (by decide)

/-- The amount in major units as the ledger sees it. -/
def negated (a : Amount) : Decimal :=
  a.toDecimal.neg

/-- The amount as a batch row shows it: sign reversed, two places. -/
def exportText (a : Amount) : String :=
  a.negated.moneyText

/-- The amount with the sign it is stored with, two places. -/
def displayText (a : Amount) : String :=
  a.toDecimal.moneyText

/-- Amounts in ascending order. -/
def sort (amounts : List Amount) : List Amount :=
  amounts.mergeSort (fun a b => decide (a.minor ≤ b.minor))

end Amount

end Posting
