import Posting.Number.Shortest
import Posting.Text.Characters

/-!
# Values of variables

The text of a variable is taken for a truth value, an integer of 64 bits or a floating-point number
if it can be read as one, in this order, and for itself otherwise.  `Literal.text` is a literal as a
text, which need not be the text it was read from; `Literal.month` is a literal as a number.
-/

namespace Posting.Settings

open Number Text

/-- What the text of a variable is taken for. -/
inductive Literal
  | truth (b : Bool)
  | integer (n : Int)
  | float (x : Binary64)
  | text (s : String)
  deriving DecidableEq, Repr

/-- The sign at the front of a text, true for minus, and what follows it. -/
def splitSign : List Char → Bool × List Char
  | '-' :: rest => (true, rest)
  | '+' :: rest => (false, rest)
  | cs => (false, cs)

/-- The integer of 64 bits that a text denotes. -/
def integer? (cs : List Char) : Option Int :=
  let (negative, rest) := splitSign cs
  if rest.isEmpty ∨ !rest.all Char.isDigit then none
  else
    let n : Int := if negative then -(readDigits rest : Int) else readDigits rest
    if -0x8000000000000000 ≤ n ∧ n < 0x8000000000000000 then some n else none

/-- The exponent that a text denotes, which is empty or starts with the letter of an exponent. -/
def exponent? : List Char → Option Int
  | [] => some 0
  | c :: cs =>
    let (negative, run) := splitSign cs
    if (c = 'e' ∨ c = 'E') ∧ !run.isEmpty ∧ run.all Char.isDigit then
      some (if negative then -(readDigits run : Int) else readDigits run)
    else none

/-- The floating-point number that a text without a sign denotes. -/
def magnitude? (negative : Bool) (cs : List Char) : Option Binary64 :=
  let word := String.ofList (cs.map Char.toLower)
  if word = "inf" ∨ word = "infinity" then some (.infinite negative)
  else if word = "nan" then some .nan
  else
    let whole := cs.takeWhile Char.isDigit
    let rest := cs.dropWhile Char.isDigit
    let (places, rest) :=
      match rest with
      | '.' :: rest => (rest.takeWhile Char.isDigit, rest.dropWhile Char.isDigit)
      | _ => ([], rest)
    if whole.isEmpty ∧ places.isEmpty then none
    else
      (exponent? rest).map fun exponent =>
        .ofDecimal negative (readDigits (whole ++ places)) (exponent - places.length)

/-- The floating-point number that a text denotes. -/
def float? (cs : List Char) : Option Binary64 :=
  let (negative, rest) := splitSign cs
  magnitude? negative rest

namespace Literal

/-- What a text is taken for. -/
def ofText (s : String) : Literal :=
  let word := s.map Char.toLower
  if word = "true" then .truth true
  else if word = "false" then .truth false
  else
    match integer? s.toList with
    | some n => .integer n
    | none =>
      match float? s.toList with
      | some x => .float x
      | none => .text s

def asText : Literal → String
  | .truth b => if b then "true" else "false"
  | .integer n => String.ofList (Text.integer n)
  | .float x => x.positional
  | .text s => s

end Literal

/-- A floating-point number rounded to a natural number of 64 bits, a half upward; what is too great
becomes the greatest one, and what is negative or no number becomes zero. -/
def wholePart : Binary64 → Nat
  | .nan => 0
  | .infinite negative => if negative then 0 else 0xFFFFFFFFFFFFFFFF
  | .finite negative mantissa exponent =>
    if negative then 0
    else
      let (num, den) := Binary64.scale mantissa 1 exponent
      min (halfUp num den) 0xFFFFFFFFFFFFFFFF

/-- Why a literal is no number of a month. -/
inductive MonthFault
  | notInteger (text : String)
  | negative (n : Int)
  | tooGreat (n : Nat)
  deriving DecidableEq, Repr

/-- The literal as a natural number of 64 bits. -/
def Literal.natural : Literal → Except MonthFault Nat
  | .truth b => .ok (if b then 1 else 0)
  | .integer n => if 0 ≤ n then .ok n.toNat else .error (.negative n)
  | .float x => .ok (wholePart x)
  | .text s =>
    let word := s.map Char.toLower
    if word = "true" ∨ word = "on" ∨ word = "yes" then .ok 1
    else if word = "false" ∨ word = "off" ∨ word = "no" then .ok 0
    else .error (.notInteger s)

/-- The literal as a natural number of 32 bits. -/
def Literal.month (l : Literal) : Except MonthFault Nat := do
  let n ← l.natural
  if n < 0x100000000 then .ok n else .error (.tooGreat n)

end Posting.Settings
