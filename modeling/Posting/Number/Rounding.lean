/-!
# Rounding a quotient to a whole number

`halfEven` rounds to the nearest whole number and a half to the even neighbour; `halfUp` rounds a
half upward.  A `Tie` names the one or the other.  A rounded quotient is the floor or one above it
(`halfEven_le`).
-/

namespace Posting.Number

/-- The whole number nearest to `num / den`; of two equally near the even one. -/
def halfEven (num den : Nat) : Nat :=
  let whole := num / den
  let rest := num % den
  if den < 2 * rest ∨ (den = 2 * rest ∧ whole % 2 = 1) then whole + 1 else whole

/-- The whole number nearest to `num / den`; of two equally near the greater one. -/
def halfUp (num den : Nat) : Nat :=
  (2 * num + den) / (2 * den)

/-- Where a half goes. -/
inductive Tie
  | even
  | up
  deriving DecidableEq, Repr

/-- The whole number nearest to `num / den`; of two equally near the one that the tie names. -/
def Tie.round : Tie → Nat → Nat → Nat
  | .even => halfEven
  | .up => halfUp

theorem halfEven_le (num den : Nat) : halfEven num den ≤ num / den + 1 := by
  simp only [halfEven]
  split <;> omega

theorem halfEven_one (num : Nat) : halfEven num 1 = num := by
  simp [halfEven, Nat.mod_one]

/-- Rounding to a grid at least ten times as coarse keeps a bound above one. -/
theorem halfEven_lt {num den bound : Nat} (hden : 10 ≤ den) (hbound : 2 ≤ bound)
    (h : num < bound) : halfEven num den < bound := by
  have h1 := halfEven_le num den
  have h2 : num / den ≤ num / 10 := Nat.div_le_div_left hden (by decide)
  omega

end Posting.Number
