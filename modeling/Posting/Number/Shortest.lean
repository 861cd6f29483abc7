import Posting.Number.Binary64

/-!
# The shortest decimal that reads back

A finite binary number stands for every real that rounds to it.  `shortest` is the decimal with the
fewest digits among those reals; of several the nearest to the number, and of two equally near the
one that a tie names.

* `positional` writes a number without an exponent; a tie goes up.
* `exact` is the style of messages: positional while the first digit stands at one of the places
  from `10 ^ -5` to `10 ^ 15`, else with one digit before the point and an exponent; a tie goes to
  the even digit.
-/

namespace Posting.Number

/-- The power of ten of the first digit of a positive quotient. -/
def leadingPower (num den : Nat) : Int :=
  if den ≤ num then (Text.digits (num / den)).length - 1
  else -((Text.digits ((den - 1) / num)).length : Int)

/-- The multiples of a power of ten next to a quotient, the nearer one first; of two equally near
the one that the tie names comes first. -/
def neighbours (tie : Tie) (num den : Nat) (power : Int) : List Nat :=
  let n := num * Nat.pow 10 (-power).toNat
  let d := den * Nat.pow 10 power.toNat
  let below := n / d
  if tie.round n d = below then [below, below + 1] else [below + 1, below]

/-- Four times the least and the greatest real that round to a number with this mantissa, and
whether these two do so themselves. -/
def roundingInterval (mantissa : Nat) (exponent : Int) : Nat × Nat × Bool :=
  let low :=
    if mantissa = 0x10000000000000 ∧ -1074 < exponent then 4 * mantissa - 1 else 4 * mantissa - 2
  (low, 4 * mantissa + 2, mantissa % 2 == 0)

/-- Whether a multiple of a power of ten rounds to the number `mantissa * 2 ^ exponent`. -/
def readsBack (mantissa : Nat) (exponent : Int) (n : Nat) (power : Int) : Bool :=
  let (low, high, closed) := roundingInterval mantissa exponent
  let value := 4 * n * Nat.pow 10 power.toNat * Nat.pow 2 (-exponent).toNat
  let unit := Nat.pow 2 exponent.toNat * Nat.pow 10 (-power).toNat
  if closed then low * unit ≤ value && value ≤ high * unit
  else low * unit < value && value < high * unit

/-- The first decimal with at least so many digits, and with `tries` more at most, that reads
back. -/
def shortestFrom (tie : Tie) (mantissa : Nat) (exponent : Int) (leading : Int) (num den : Nat) :
    Nat → Nat → Nat × Int
  | 0, count => ((neighbours tie num den (leading - count)).headD 0, leading - count)
  | tries + 1, count =>
    let power := leading - count
    match (neighbours tie num den power).find? (fun n => readsBack mantissa exponent n power) with
    | some n => (n, power)
    | none => shortestFrom tie mantissa exponent leading num den tries (count + 1)

/-- A number without the zeros at its end, and their count. -/
def dropZeros : Nat → Nat → Nat × Nat
  | 0, n => (n, 0)
  | most + 1, n =>
    if n % 10 = 0 ∧ n ≠ 0 then
      let (short, count) := dropZeros most (n / 10)
      (short, count + 1)
    else (n, 0)

/-- The digits and the power of ten of their unit, of the shortest decimal that reads back as the
positive number `mantissa * 2 ^ exponent`. -/
def shortest (tie : Tie) (mantissa : Nat) (exponent : Int) : Nat × Int :=
  let (num, den) := Binary64.scale mantissa 1 exponent
  let (n, power) := shortestFrom tie mantissa exponent (leadingPower num den) num den 17 0
  let (short, zeros) := dropZeros 20 n
  (short, power + zeros)

/-- A decimal written without an exponent; `point` is what follows if it has no places. -/
def positionalDigits (n : Nat) (power : Int) (point : List Char) : List Char :=
  let shown := Text.digits n
  if 0 ≤ power then shown ++ List.replicate power.toNat '0' ++ point
  else
    let places := (-power).toNat
    let shown := Text.padded (places + 1) n
    shown.take (shown.length - places) ++ '.' :: shown.drop (shown.length - places)

/-- A decimal with one digit before the point, and an exponent with its sign. -/
def scientificDigits (n : Nat) (power : Int) : List Char :=
  let shown := Text.digits n
  let exponent := power + (shown.length - 1 : Nat)
  let rest := if shown.length ≤ 1 then [] else '.' :: shown.drop 1
  shown.take 1 ++ rest ++ 'e' :: (if exponent < 0 then '-' else '+') :: Text.digits exponent.natAbs

namespace Binary64

/-- A number without an exponent, and without places if it is whole. -/
def positional : Binary64 → String
  | .nan => "NaN"
  | .infinite negative => if negative then "-inf" else "inf"
  | .finite negative mantissa exponent =>
    let text :=
      if mantissa = 0 then ['0']
      else
        let (n, power) := shortest .up mantissa exponent
        positionalDigits n power []
    String.ofList (if negative then '-' :: text else text)

/-- A number with a point or an exponent. -/
def exact : Binary64 → String
  | .nan => "NaN"
  | .infinite negative => if negative then "-inf" else "inf"
  | .finite negative mantissa exponent =>
    let text :=
      if mantissa = 0 then ['0', '.', '0']
      else
        let (n, power) := shortest .even mantissa exponent
        let leading := power + ((Text.digits n).length - 1 : Nat)
        if -5 ≤ leading ∧ leading ≤ 15 then positionalDigits n power ['.', '0']
        else scientificDigits n power
    String.ofList (if negative then '-' :: text else text)

end Binary64

end Posting.Number
