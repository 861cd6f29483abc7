import Posting.Calendar.Date
import Posting.Text.Characters
import Posting.Text.Digits

/-!
# Dates as text

* `Date.text` writes a date as year, month and day with hyphens between; `Date.compact` writes it
  without them.  Outside the years 0 to 9999 the year carries its sign and has at least four digits.
* `Date.read` reads a date: a year with or without a sign, a month and a day of one or two digits,
  hyphens between them, and blanks before and after each.  Without a sign a year has at most four
  digits.
-/

namespace Posting.Calendar

open Text

/-- A year with at least four digits, and with its sign outside the years 0 to 9999. -/
def yearText (year : Int) : List Char :=
  if 0 ≤ year ∧ year ≤ 9999 then padded 4 year.natAbs
  else (if year < 0 then '-' else '+') :: padded 4 year.natAbs

/-- Why a text is no date. -/
inductive DateFault
  | outOfRange
  | invalid
  | tooShort
  | tooLong
  deriving DecidableEq, Repr

/-- What is said of a text that is no date. -/
def DateFault.message : DateFault → String
  | .outOfRange => "input is out of range"
  | .invalid => "input contains invalid characters"
  | .tooShort => "premature end of input"
  | .tooLong => "trailing input"

/-- The number that a text starts with, of at most `most` digits, and the rest. -/
def readNumber (most : Option Nat) (cs : List Char) : Except DateFault (Nat × List Char) :=
  let run := cs.takeWhile Char.isDigit
  let taken :=
    match most with
    | some count => run.take count
    | none => run
  match cs with
  | [] => .error .tooShort
  | _ =>
    if taken.isEmpty then .error .invalid
    else .ok (readDigits taken, cs.drop taken.length)

/-- The year that a text starts with, and the rest. -/
def readYear (cs : List Char) : Except DateFault (Int × List Char) := do
  let (year, rest) ←
    match cs with
    | '-' :: rest => (readNumber none rest).map (fun (n, rest) => (-(n : Int), rest))
    | '+' :: rest => (readNumber none rest).map (fun (n, rest) => ((n : Int), rest))
    | _ => (readNumber (some 4) cs).map (fun (n, rest) => ((n : Int), rest))
  if -0x80000000 ≤ year ∧ year < 0x80000000 then .ok (year, rest) else .error .outOfRange

/-- The number from 1 to `greatest`, of at most two digits, that a text starts with, and the
rest. -/
def readPart (greatest : Nat) (cs : List Char) : Except DateFault (Nat × List Char) := do
  let (n, rest) ← readNumber (some 2) cs
  if 1 ≤ n ∧ n ≤ greatest then .ok (n, rest) else .error .outOfRange

/-- The rest of a text after the hyphen that it starts with. -/
def skipHyphen : List Char → Except DateFault (List Char)
  | [] => .error .tooShort
  | c :: rest => if c = '-' then .ok rest else .error .invalid

namespace Date

/-- The date that a text denotes. -/
def read (s : String) : Except DateFault Date := do
  let (year, rest) ← readYear (skipBlanks s.toList)
  let rest ← skipHyphen (skipBlanks rest)
  let (month, rest) ← readPart 12 (skipBlanks rest)
  let rest ← skipHyphen (skipBlanks rest)
  let (day, rest) ← readPart 31 (skipBlanks rest)
  if !(skipBlanks rest).isEmpty then .error .tooLong
  else
    match of? year month day with
    | some date => .ok date
    | none => .error .outOfRange

/-- The date as year, month and day with hyphens between. -/
def text (d : Date) : String :=
  String.ofList (yearText d.year ++ '-' :: padded 2 d.month ++ '-' :: padded 2 d.day)

/-- The date as year, month and day with nothing between. -/
def compact (d : Date) : String :=
  String.ofList (yearText d.year ++ padded 2 d.month ++ padded 2 d.day)

/-- The date's month by its name, and its year. -/
def monthAndYear (d : Date) : String :=
  String.ofList ((monthName d.month).toList ++ ' ' :: yearText d.year)

end Date

end Posting.Calendar
