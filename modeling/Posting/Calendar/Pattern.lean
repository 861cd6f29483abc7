import Posting.Calendar.DateText

/-!
# Display patterns

A pattern is a text in which a percent sign and a letter name a part of a date; `-`, `0` or `_`
between the two asks for a number bare, with zeros, or with spaces in front.

* `items` takes a pattern apart; what names no part of a date becomes `Item.missing`.
* `render?` fills a pattern in.  Whether it succeeds does not depend on the date
  (`isSome_render?`), so one sample decides whether a pattern can be used.
* A `DisplayFormat` is a pattern that can be used, and `DisplayFormat.write` fills it in.
-/

namespace Posting.Calendar

open Text

/-- What stands before a number that is shorter than its field. -/
inductive Padding
  | bare
  | zeros
  | spaces
  deriving DecidableEq, Repr

/-- A part of a date that is written as a number. -/
inductive DateField
  | year
  | century
  | yearOfCentury
  | isoYear
  | isoYearOfCentury
  | quarter
  | month
  | day
  | weekFromSunday
  | weekFromMonday
  | isoWeek
  | dayOfYear
  | weekdayFromSunday
  | weekdayFromMonday
  deriving DecidableEq, Repr

/-- A piece of a pattern. -/
inductive Item
  | literal (c : Char)
  | number (field : DateField) (padding : Padding)
  | month (short : Bool)
  | weekday (short : Bool)
  /-- What a date does not have, or what is nothing at all. -/
  | missing
  deriving DecidableEq, Repr

/-- The field that a letter names, with the padding that it has by itself. -/
def field? : Char → Option (DateField × Padding)
  | 'Y' => some (.year, .zeros)
  | 'C' => some (.century, .zeros)
  | 'y' => some (.yearOfCentury, .zeros)
  | 'G' => some (.isoYear, .zeros)
  | 'g' => some (.isoYearOfCentury, .zeros)
  | 'q' => some (.quarter, .zeros)
  | 'm' => some (.month, .zeros)
  | 'd' => some (.day, .zeros)
  | 'e' => some (.day, .spaces)
  | 'U' => some (.weekFromSunday, .zeros)
  | 'W' => some (.weekFromMonday, .zeros)
  | 'V' => some (.isoWeek, .zeros)
  | 'j' => some (.dayOfYear, .zeros)
  | 'w' => some (.weekdayFromSunday, .zeros)
  | 'u' => some (.weekdayFromMonday, .zeros)
  | _ => none

/-- The pieces that a letter stands for. -/
def lettered (c : Char) : List Item :=
  match field? c with
  | some (field, padding) => [.number field padding]
  | none =>
    match c with
    | 'B' => [.month false]
    | 'b' | 'h' => [.month true]
    | 'A' => [.weekday false]
    | 'a' => [.weekday true]
    | 'D' | 'x' =>
      [.number .month .zeros, .literal '/', .number .day .zeros, .literal '/',
        .number .yearOfCentury .zeros]
    | 'F' =>
      [.number .year .zeros, .literal '-', .number .month .zeros, .literal '-',
        .number .day .zeros]
    | 'v' =>
      [.number .day .spaces, .literal '-', .month true, .literal '-', .number .year .zeros]
    | 't' => [.literal '\t']
    | 'n' => [.literal '\n']
    | '%' => [.literal '%']
    | _ => [.missing]

/-- The piece that a letter stands for with a padding of choice, which only a number takes. -/
def letteredWith (padding : Padding) (c : Char) : Item :=
  match field? c with
  | some (field, _) => .number field padding
  | none => .missing

/-- The pieces of a pattern. -/
def items : List Char → List Item
  | [] => []
  | ['%'] => [.missing]
  | '%' :: '-' :: c :: rest => letteredWith .bare c :: items rest
  | '%' :: '0' :: c :: rest => letteredWith .zeros c :: items rest
  | '%' :: '_' :: c :: rest => letteredWith .spaces c :: items rest
  | '%' :: c :: rest => lettered c ++ items rest
  | c :: rest => .literal c :: items rest

/-- A number in a field of the given width. -/
def Padding.write (padding : Padding) (width n : Nat) : List Char :=
  match padding with
  | .bare => digits n
  | .zeros => padded width n
  | .spaces => (digits n).leftpad width ' '

/-- A year in a field of four, or of five with its sign outside the years 0 to 9999. -/
def Padding.writeYear (padding : Padding) (year : Int) : List Char :=
  match padding with
  | .zeros => yearText year
  | _ =>
    if 0 ≤ year ∧ year ≤ 9999 then padding.write 4 year.natAbs
    else
      let signed := (if year < 0 then '-' else '+') :: digits year.natAbs
      if padding = .spaces then signed.leftpad 5 ' ' else signed

/-- A number of two characters: the tens as the character that lies so far after zero, and the
ones. -/
def Padding.writePair (padding : Padding) (n : Nat) : List Char :=
  let ones := Char.ofNat ('0'.toNat + n % 10)
  match padding, n / 10 with
  | .bare, 0 => [ones]
  | .spaces, 0 => [' ', ones]
  | _, tens => [Char.ofNat ('0'.toNat + tens), ones]

/-- A field of a date. The century is taken modulo 256. -/
def DateField.write (padding : Padding) (d : Date) : DateField → List Char
  | .year => padding.writeYear d.year
  | .century => padding.writePair (d.year / 100 % 256).toNat
  | .yearOfCentury => padding.writePair (d.year % 100).toNat
  | .isoYear => padding.writeYear d.isoYear
  | .isoYearOfCentury => padding.writePair (d.isoYear % 100).toNat
  | .quarter => digits ((d.month - 1) / 3 + 1)
  | .month => padding.writePair d.month
  | .day => padding.writePair d.day
  | .weekFromSunday => padding.writePair (d.weeksBegun d.weekdayFromSunday)
  | .weekFromMonday => padding.writePair (d.weeksBegun d.weekday)
  | .isoWeek => padding.writePair d.isoWeek
  | .dayOfYear => padding.write 3 d.ordinal
  | .weekdayFromSunday => digits d.weekdayFromSunday
  | .weekdayFromMonday => digits (d.weekday + 1)

/-- A name, or its first three letters. -/
def shortened (short : Bool) (name : String) : List Char :=
  if short then name.toList.take 3 else name.toList

/-- A piece of a pattern, filled in with a date. -/
def Item.write? (d : Date) : Item → Option (List Char)
  | .literal c => some [c]
  | .number field padding => some (field.write padding d)
  | .month short => some (shortened short (monthName d.month))
  | .weekday short => some (shortened short (weekdayName d.weekday))
  | .missing => none

/-- Pieces of a pattern, filled in with a date one after the other. -/
def writeAll? (d : Date) : List Item → Option (List Char)
  | [] => some []
  | item :: rest => do
    let first ← item.write? d
    let others ← writeAll? d rest
    return first ++ others

/-- A pattern, filled in with a date. -/
def render? (pattern : String) (d : Date) : Option String :=
  (writeAll? d (items pattern.toList)).map String.ofList

theorem Item.isSome_write? (d e : Date) (item : Item) :
    (item.write? d).isSome = (item.write? e).isSome := by
  cases item <;> rfl

theorem isSome_writeAll? (d e : Date) (list : List Item) :
    (writeAll? d list).isSome = (writeAll? e list).isSome := by
  induction list with
  | nil => rfl
  | cons item rest ih =>
    have h := Item.isSome_write? d e item
    cases hd : item.write? d <;> cases he : item.write? e <;>
      cases hd' : writeAll? d rest <;> cases he' : writeAll? e rest <;>
      simp_all [writeAll?]

/-- A pattern that can be filled in with one date can be filled in with every other. -/
theorem isSome_render? (pattern : String) (d e : Date) :
    (render? pattern d).isSome = (render? pattern e).isSome := by
  simp [render?, isSome_writeAll? d e]

/-- A display pattern that can be filled in. -/
structure DisplayFormat where
  pattern : String
  usable : (render? pattern .epoch).isSome = true
  deriving DecidableEq

namespace DisplayFormat

/-- The pattern of month, day and year with slashes between. -/
def standardPattern : String :=
  "%m/%d/%Y"

/-- The format of a pattern, which must not be empty and is tried on one date. -/
def ofPattern (pattern : String) : Except CalendarError DisplayFormat :=
  if pattern.isEmpty then .error (.invalidPattern pattern)
  else if h : (render? pattern .epoch).isSome = true then .ok ⟨pattern, h⟩
  else .error (.invalidPattern pattern)

/-- A date as the format shows it. -/
def write (format : DisplayFormat) (d : Date) : String :=
  (render? format.pattern d).get ((isSome_render? _ d .epoch).trans format.usable)

/-- The format of month, day and year with slashes between. -/
def standard : DisplayFormat :=
  ⟨standardPattern, by decide +kernel⟩

instance : Inhabited DisplayFormat :=
  ⟨standard⟩

end DisplayFormat

end Posting.Calendar
