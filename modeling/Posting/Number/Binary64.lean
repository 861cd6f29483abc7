import Posting.Number.Rounding
import Posting.Text.Digits

/-!
# Binary floating-point numbers of 64 bits

A finite number is a sign, a mantissa below `2 ^ 53` and a power of two of at least `2 ^ -1074`; a
mantissa below `2 ^ 52` goes with the least power only.  `ofRatio` rounds a quotient to the nearest
number, a half to the even mantissa; products, quotients and decimals are rounded by it.
-/

namespace Posting.Number

/-- A binary floating-point number of 64 bits. -/
inductive Binary64
  | finite (negative : Bool) (mantissa : Nat) (exponent : Int)
  | infinite (negative : Bool)
  | nan
  deriving DecidableEq, Repr

namespace Binary64

def zero (negative : Bool) : Binary64 :=
  .finite negative 0 (-1074)

/-- Two to a power of which the positive part goes to the numerator and the negative one to the
denominator. -/
def scale (num den : Nat) (exponent : Int) : Nat × Nat :=
  (num * Nat.pow 2 exponent.toNat, den * Nat.pow 2 (-exponent).toNat)

/-- The power of two that the mantissa of a positive quotient counts. -/
def unitExponent (num den : Nat) : Int :=
  let guess : Int := (num.log2 : Int) - den.log2
  let (n, d) := scale num den (-guess)
  let leading := if n < d then guess - 1 else guess
  max (leading - 52) (-1074)

/-- The number nearest to a quotient; of two equally near the one with the even mantissa. -/
def ofRatio (negative : Bool) (num den : Nat) : Binary64 :=
  if num = 0 then zero negative
  else
    let exponent := unitExponent num den
    let (n, d) := scale num den (-exponent)
    let mantissa := halfEven n d
    let (mantissa, exponent) :=
      if mantissa = 0x20000000000000 then (0x10000000000000, exponent + 1)
      else (mantissa, exponent)
    if 971 < exponent then .infinite negative else .finite negative mantissa exponent

/-- The number nearest to a natural number. -/
def ofNat (negative : Bool) (n : Nat) : Binary64 :=
  ofRatio negative n 1

/-- Whether the number is a zero of either sign. -/
def isZero : Binary64 → Bool
  | .finite _ mantissa _ => mantissa == 0
  | _ => false

def neg : Binary64 → Binary64
  | .finite negative mantissa exponent => .finite (!negative) mantissa exponent
  | .infinite negative => .infinite (!negative)
  | .nan => .nan

/-- The product of a finite number and a positive finite number. -/
def timesPositive (x : Binary64) (mantissa : Nat) (exponent : Int) : Binary64 :=
  match x with
  | .finite negative m e =>
    let (n, d) := scale (m * mantissa) 1 (e + exponent)
    ofRatio negative n d
  | x => x

/-- The quotient of a finite number and a positive finite number. -/
def dividedByPositive (x : Binary64) (mantissa : Nat) (exponent : Int) : Binary64 :=
  match x with
  | .finite negative m e =>
    let (n, d) := scale m mantissa (e - exponent)
    ofRatio negative n d
  | x => x

/-- A number times the number nearest to a power of ten. -/
def timesPowerOfTen (x : Binary64) (power : Nat) : Binary64 :=
  match ofNat false (Nat.pow 10 power) with
  | .finite _ mantissa exponent => timesPositive x mantissa exponent
  | _ => x

/-- A number divided by the number nearest to a power of ten. -/
def dividedByPowerOfTen (x : Binary64) (power : Nat) : Binary64 :=
  match ofNat false (Nat.pow 10 power) with
  | .finite _ mantissa exponent => dividedByPositive x mantissa exponent
  | _ => x

/-- The number nearest to a natural number times a power of ten. -/
def ofDecimal (negative : Bool) (n : Nat) (power : Int) : Binary64 :=
  let size : Int := (Text.digits n).length + power
  if n = 0 ∨ size < -330 then zero negative
  else if 330 < size then .infinite negative
  else ofRatio negative (n * Nat.pow 10 power.toNat) (Nat.pow 10 (-power).toNat)

end Binary64

end Posting.Number
