import Posting.Number.Rounding
import Posting.Text.Digits

/-!
# Decimal numbers

A `Decimal` is a sign, a whole mantissa of at most 96 bits and a count of decimal places of at most
28.  It stands for the mantissa divided by that power of ten.

* `round` keeps at most so many places; a half goes to the even neighbour.
* `widen` writes more places as long as the mantissa has room for them.
* `add?` and `sum?` are exact as long as the mantissa has room; past that they give up places, and
  past the last place they fail.
* `text` writes a decimal with exactly its places; `moneyText` writes two places.
-/

namespace Posting.Number

/-- A sign, a mantissa of at most 96 bits and a count of decimal places. -/
structure Decimal where
  negative : Bool
  mantissa : Nat
  places : Nat
  mantissa_lt : mantissa < 0x1000000000000000000000000
  places_le : places ≤ 28
  deriving DecidableEq, Repr

namespace Decimal

/-- Zero without places. -/
def zero : Decimal :=
  ⟨false, 0, 0, by decide, by decide⟩

instance : Inhabited Decimal :=
  ⟨zero⟩

/-- A decimal from its parts; a zero carries no sign. -/
def ofParts (negative : Bool) (mantissa places : Nat)
    (hm : mantissa < 0x1000000000000000000000000) (hp : places ≤ 28) : Decimal :=
  ⟨negative && mantissa != 0, mantissa, places, hm, hp⟩

/-- Whether the number is zero, of either sign. -/
def isZero (d : Decimal) : Bool :=
  d.mantissa == 0

/-- The opposite number; the sign is turned even on a zero. -/
def neg (d : Decimal) : Decimal :=
  { d with negative := !d.negative }

/-- The mantissa with its sign. -/
def signed (d : Decimal) : Int :=
  if d.negative then -(d.mantissa : Int) else d.mantissa

/-- The nearest decimal with at most so many places; a half goes to the even neighbour. -/
def round (places : Nat) (d : Decimal) : Decimal :=
  if h : d.places ≤ places then d
  else
    ofParts d.negative (halfEven d.mantissa (Nat.pow 10 (d.places - places))) places
      (halfEven_lt
        (show Nat.pow 10 1 ≤ Nat.pow 10 (d.places - places) from
          Nat.pow_le_pow_right (by decide) (by omega))
        (by decide) d.mantissa_lt)
      (by have := d.places_le; omega)

/-- The same number with one more place, `count` times, as long as the mantissa has room. -/
def widenBy : Nat → Decimal → Decimal
  | 0, d => d
  | count + 1, d =>
    if h : d.mantissa * 10 < 0x1000000000000000000000000 ∧ d.places + 1 ≤ 28 then
      widenBy count ⟨d.negative, d.mantissa * 10, d.places + 1, h.1, h.2⟩
    else d

/-- The same number with `places` places, or as many as the mantissa has room for. -/
def widen (places : Nat) (d : Decimal) : Decimal :=
  widenBy (places - d.places) d

/-- The decimal of a sign and a magnitude at `places` places, rounded to `kept` of them, if the
mantissa has room for it. -/
def keep? (negative : Bool) (magnitude places kept : Nat) : Option Decimal :=
  let mantissa := halfEven magnitude (Nat.pow 10 (places - kept))
  if h : mantissa < 0x1000000000000000000000000 ∧ kept ≤ 28 then
    some (ofParts negative mantissa kept h.1 h.2)
  else none

/-- The decimal of a sign and a magnitude at `places` places, rounded to the most places up to the
given count that the mantissa has room for. -/
def fit? (negative : Bool) (magnitude places : Nat) : Nat → Option Decimal
  | 0 => keep? negative magnitude places 0
  | fewer + 1 =>
    match keep? negative magnitude places (fewer + 1) with
    | some d => some d
    | none => fit? negative magnitude places fewer

/-- The sum of two decimals, with the places of the finer one as long as the mantissa has room. A
zero adds nothing, not even places. -/
def add? (a b : Decimal) : Option Decimal :=
  if a.isZero then some b
  else if b.isZero then some a
  else
    let places := max a.places b.places
    let total :=
      a.signed * Nat.pow 10 (places - a.places) + b.signed * Nat.pow 10 (places - b.places)
    fit? (decide (total < 0)) total.natAbs places places

/-- The sum of a list, added from the left. -/
def sum? (ds : List Decimal) : Option Decimal :=
  ds.foldlM add? zero

/-- The digits of the mantissa with a point before the places, and at least one digit before it. -/
def magnitudeText (d : Decimal) : List Char :=
  let shown := Text.padded (d.places + 1) d.mantissa
  let whole := shown.take (shown.length - d.places)
  if d.places = 0 then whole else whole ++ '.' :: shown.drop (shown.length - d.places)

/-- A decimal with exactly its places. -/
def text (d : Decimal) : String :=
  String.ofList (if d.negative then '-' :: d.magnitudeText else d.magnitudeText)

/-- A decimal with two places: rounded to them, or widened to them as far as the mantissa has room.
Zero is written without a sign. -/
def moneyText (d : Decimal) : String :=
  if d.isZero then "0.00" else ((d.round 2).widen 2).text

end Decimal

end Posting.Number
