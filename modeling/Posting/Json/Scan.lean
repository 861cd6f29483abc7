import Posting.Json.Error

/-!
# Reading a JSON text from its front

A `Scanner` takes something off the front of a text and returns it with the rest.  This module holds
the scanners of scalars (`scanHead`), of the separators in arrays and objects, and `skipValue`,
which passes over a value that nobody asks for and is less strict: it checks neither the range of
numbers nor the pairing of surrogates.

Numbers without a point and an exponent that fit 64 bits are exact.  Of all others the first digits
that fit 64 bits count; the number nearest to them is multiplied or divided by the number nearest
to a power of ten.

A reader that takes an unknown number of steps recurs on `bound`, a text at least as long as the one
it reads, for which the text itself serves: every step takes a character off, so the text ends with
the bound or before it.
-/

namespace Posting.Json

open Posting.Number Text

/-- A function that takes something off the front of a text. -/
abbrev Scanner (α : Type) : Type :=
  List Char → Except Error (α × List Char)

/-- Refuses a text for a breach of the grammar. -/
def refuse {α : Type} (fault : TextFault) : Except Error α :=
  .error (.text fault)

/-- The characters that may stand between the parts of a JSON text. -/
def isSpace (c : Char) : Bool :=
  c == ' ' || c == '\n' || c == '\t' || c == '\r'

/-- What is left of a text after the space at its start. -/
def skipSpace (cs : List Char) : List Char :=
  cs.dropWhile isSpace

/-- What is left of a text after the letters of a word. -/
def scanWord : List Char → List Char → Except Error (List Char)
  | [], cs => .ok cs
  | _ :: _, [] => refuse .endInValue
  | w :: word, c :: cs => if c = w then scanWord word cs else refuse .unknownWord

/-! ### Strings -/

/-- Whether a text is at least so many bytes long. -/
def hasBytes (count : Nat) (cs : List Char) : Bool :=
  decide (count ≤ (cs.take count).foldr (fun c bytes => c.utf8Size + bytes) 0)

def scanHex (cs : List Char) : Except Error (Nat × List Char) :=
  if !hasBytes 4 cs then refuse .endInString
  else
    match (cs.take 4).mapM hexValue? with
    | some [a, b, c, d] => .ok (((a * 16 + b) * 16 + c) * 16 + d, cs.drop 4)
    | _ => refuse .invalidEscape

/-- The character that a letter after a backslash stands for. -/
def escaped? : Char → Option Char
  | '"' => some '"'
  | '\\' => some '\\'
  | '/' => some '/'
  | 'b' => some (Char.ofNat 8)
  | 'f' => some (Char.ofNat 12)
  | 'n' => some '\n'
  | 'r' => some '\r'
  | 't' => some '\t'
  | _ => none

/-- The second half of a character that takes two escapes. -/
def scanSecondHalf (first : Nat) (cs : List Char) : Except Error (Char × List Char) :=
  match cs with
  | [] => refuse .endInString
  | '\\' :: [] => refuse .endInString
  | '\\' :: 'u' :: rest => do
    let (second, rest) ← scanHex rest
    if 0xDC00 ≤ second ∧ second ≤ 0xDFFF then
      .ok (Char.ofNat ((first - 0xD800) * 0x400 + (second - 0xDC00) + 0x10000), rest)
    else refuse .loneSurrogate
  | _ => refuse .missingSurrogate

/-- The character of an escape, of which the backslash is read. -/
def scanEscape : Scanner Char
  | [] => refuse .endInString
  | 'u' :: rest => do
    let (n, rest) ← scanHex rest
    if 0xDC00 ≤ n ∧ n ≤ 0xDFFF then refuse .loneSurrogate
    else if 0xD800 ≤ n ∧ n ≤ 0xDBFF then scanSecondHalf n rest
    else .ok (Char.ofNat n, rest)
  | c :: rest =>
    match escaped? c with
    | some e => .ok (e, rest)
    | none => refuse .invalidEscape

/-- The rest of a string of which the characters `done` are read, the last one first. -/
def scanCharacters : (bound done : List Char) → Scanner String
  | [], _, _ => refuse .endInString
  | _ :: _, _, [] => refuse .endInString
  | _ :: bound, done, c :: rest =>
    if c = '"' then .ok (String.ofList done.reverse, rest)
    else if c = '\\' then
      match scanEscape rest with
      | .ok (e, rest) => scanCharacters bound (e :: done) rest
      | .error e => .error e
    else if c.toNat < 0x20 then refuse .controlCharacter
    else scanCharacters bound (c :: done) rest

/-- A string of which the opening quote is read. -/
def scanString : Scanner String := fun cs =>
  scanCharacters cs [] cs

/-- What is left after a string of which the opening quote is read. -/
def skipCharacters : (bound : List Char) → List Char → Except Error (List Char)
  | [], _ => refuse .endInString
  | _ :: _, [] => refuse .endInString
  | _ :: bound, c :: rest =>
    if c = '"' then .ok rest
    else if c = '\\' then
      match rest with
      | [] => refuse .endInString
      | 'u' :: rest =>
        match scanHex rest with
        | .ok (_, rest) => skipCharacters bound rest
        | .error e => .error e
      | e :: rest =>
        if (escaped? e).isSome then skipCharacters bound rest else refuse .invalidEscape
    else if c.toNat < 0x20 then refuse .controlCharacter
    else skipCharacters bound rest

/-- What is left after a string of which the opening quote is read. -/
def skipString (cs : List Char) : Except Error (List Char) :=
  skipCharacters cs cs

/-! ### Numbers -/

/-- Whether a text starts with a digit. -/
def startsWithDigit : List Char → Bool
  | c :: _ => c.isDigit
  | [] => false

/-- Whether a text starts with the letter of an exponent. -/
def startsWithExponent : List Char → Bool
  | c :: _ => c == 'e' || c == 'E'
  | [] => false

/-- The digits at the front of a text behind those of `n`, as many as fit 64 bits: the number, how
many digits were read, and the rest. -/
def scanDigits (n : Nat) : List Char → Nat × Nat × List Char
  | [] => (n, 0, [])
  | c :: rest =>
    let next := n * 10 + digitValue c
    if c.isDigit ∧ next < 0x10000000000000000 then
      let (all, count, rest) := scanDigits next rest
      (all, count + 1, rest)
    else (n, 0, c :: rest)

/-- A number divided by a power of ten, by `10 ^ 308` at a time; it is zero after two such
steps. -/
def divideTenfold : Nat → Binary64 → Nat → Binary64
  | 0, x, _ => x
  | steps + 1, x, power =>
    if power ≤ 308 then x.dividedByPowerOfTen power
    else if x.isZero then x
    else divideTenfold steps (x.dividedByPowerOfTen 308) (power - 308)

/-- The number of a sign, digits and a power of ten, if it is not too great. -/
def float? (negative : Bool) (digits : Nat) (power : Int) : Option Binary64 :=
  let start := Binary64.ofNat false digits
  let magnitude :=
    if power < 0 then some (divideTenfold 4 start (-power).toNat)
    else if power ≤ 308 then
      match start.timesPowerOfTen power.toNat with
      | .finite sign mantissa exponent => some (.finite sign mantissa exponent)
      | _ => none
    else if digits = 0 then some start
    else none
  magnitude.map (fun x => if negative then x.neg else x)

/-- The floating-point number of a sign, digits and a power of ten. -/
def finishFloat (negative : Bool) (digits : Nat) (power : Int) (rest : List Char) :
    Except Error (Numeral × List Char) :=
  match float? negative digits power with
  | some x => .ok (.float x, rest)
  | none => refuse .numberOutOfRange

/-- An exponent of which the letter is read, and the number that it belongs to. -/
def scanExponent (negative : Bool) (digits : Nat) (power : Int) (cs : List Char) :
    Except Error (Numeral × List Char) :=
  let (down, cs) :=
    match cs with
    | '+' :: rest => (false, rest)
    | '-' :: rest => (true, rest)
    | _ => (false, cs)
  let run := cs.takeWhile Char.isDigit
  let rest := cs.dropWhile Char.isDigit
  if cs.isEmpty then refuse .endInValue
  else if run.isEmpty then refuse .invalidNumber
  else
    let n := readDigits run
    if n < 0x80000000 then finishFloat negative digits (if down then power - n else power + n) rest
    else if !down ∧ digits ≠ 0 then refuse .numberOutOfRange
    else .ok (.float (.zero negative), rest)

/-- What follows the digits of a floating-point number: an exponent or nothing. -/
def scanPower (negative : Bool) (digits : Nat) (power : Int) (cs : List Char) :
    Except Error (Numeral × List Char) :=
  if startsWithExponent cs then scanExponent negative digits power cs.tail
  else finishFloat negative digits power cs

/-- The places of a number of which the point is read. -/
def scanPlaces (negative : Bool) (digits : Nat) (power : Int) (cs : List Char) :
    Except Error (Numeral × List Char) :=
  let (digits, count, rest) := scanDigits digits cs
  if startsWithDigit rest then
    scanPower negative digits (power - count) (rest.dropWhile Char.isDigit)
  else if count = 0 then
    if rest.isEmpty then refuse .endInValue else refuse .invalidNumber
  else scanPower negative digits (power - count) rest

/-- What follows digits that fit 64 bits: places, an exponent, or the end of an integer. -/
def finishNumber (negative : Bool) (digits : Nat) (cs : List Char) :
    Except Error (Numeral × List Char) :=
  match cs with
  | '.' :: rest => scanPlaces negative digits 0 rest
  | _ =>
    if startsWithExponent cs then scanExponent negative digits 0 cs.tail
    else if !negative then .ok (.integer digits, cs)
    else if digits = 0 ∨ 0x8000000000000000 < digits then .ok (.float (.ofNat true digits), cs)
    else .ok (.integer (-(digits : Int)), cs)

/-- What follows digits that fit 64 bits if there are more of them. -/
def finishLong (negative : Bool) (digits : Nat) (cs : List Char) :
    Except Error (Numeral × List Char) :=
  let power := (cs.takeWhile Char.isDigit).length
  match cs.dropWhile Char.isDigit with
  | '.' :: rest => scanPlaces negative digits power rest
  | rest => scanPower negative digits power rest

/-- A number of which the sign is read. -/
def scanNumber (negative : Bool) : Scanner Numeral
  | [] => refuse .endInValue
  | c :: rest =>
    if c = '0' then
      if startsWithDigit rest then refuse .invalidNumber else finishNumber negative 0 rest
    else if c.isDigit then
      let (digits, _, rest) := scanDigits 0 (c :: rest)
      if startsWithDigit rest then finishLong negative digits rest
      else finishNumber negative digits rest
    else refuse .invalidNumber

/-- What is left after an exponent of which the letter is read. -/
def skipExponent (cs : List Char) : Except Error (List Char) :=
  let cs :=
    match cs with
    | '+' :: rest => rest
    | '-' :: rest => rest
    | _ => cs
  if startsWithDigit cs then .ok (cs.dropWhile Char.isDigit) else refuse .invalidNumber

/-- What is left after a number of which the sign is read. -/
def skipNumber (cs : List Char) : Except Error (List Char) :=
  let digits := cs.takeWhile Char.isDigit
  let rest := cs.dropWhile Char.isDigit
  if digits.isEmpty ∨ (digits.head? = some '0' ∧ 1 < digits.length) then refuse .invalidNumber
  else
    match rest with
    | '.' :: places =>
      let rest := places.dropWhile Char.isDigit
      if !startsWithDigit places then refuse .invalidNumber
      else if startsWithExponent rest then skipExponent rest.tail
      else .ok rest
    | _ => if startsWithExponent rest then skipExponent rest.tail else .ok rest

/-! ### Values -/

/-- The beginning of a value: a scalar, or the bracket that opens a container. -/
def scanHead : Scanner Head := fun cs =>
  match skipSpace cs with
  | [] => refuse .endInValue
  | 'n' :: rest => (scanWord "ull".toList rest).map (fun rest => (.null, rest))
  | 't' :: rest => (scanWord "rue".toList rest).map (fun rest => (.bool true, rest))
  | 'f' :: rest => (scanWord "alse".toList rest).map (fun rest => (.bool false, rest))
  | '-' :: rest => (scanNumber true rest).map (fun (n, rest) => (.number n, rest))
  | '"' :: rest => (scanString rest).map (fun (s, rest) => (.string s, rest))
  | '[' :: rest => .ok (.array, rest)
  | c :: rest =>
    if c = Char.ofNat 0x7B then .ok (.object, rest)
    else if c.isDigit then
      (scanNumber false (c :: rest)).map (fun (n, rest) => (.number n, rest))
    else refuse .missingValue

def closing : Char :=
  Char.ofNat 0x7D

/-- Whether another item of an array follows, and the text from there: the item, or the bracket
that closes the array. -/
def nextItem (first : Bool) (cs : List Char) : Except Error (Bool × List Char) :=
  match skipSpace cs with
  | [] => refuse .endInArray
  | ']' :: rest => .ok (false, ']' :: rest)
  | c :: rest =>
    if first then .ok (true, c :: rest)
    else if c = ',' then
      match skipSpace rest with
      | [] => refuse .endInValue
      | ']' :: _ => refuse .trailingComma
      | rest => .ok (true, rest)
    else refuse .missingArraySeparator

/-- What is left after the bracket that closes an array. -/
def closeArray (cs : List Char) : Except Error (List Char) :=
  match skipSpace cs with
  | [] => refuse .endInArray
  | ']' :: rest => .ok rest
  | ',' :: rest =>
    match skipSpace rest with
    | ']' :: _ => refuse .trailingComma
    | _ => refuse .trailingText
  | _ => refuse .trailingText

/-- The name of the next entry of an object, or none where the object is closed, and the rest. -/
def nextName (first : Bool) (cs : List Char) : Except Error (Option String × List Char) :=
  match skipSpace cs with
  | [] => refuse .endInObject
  | c :: rest =>
    if c = closing then .ok (none, rest)
    else if first then
      if c = '"' then (scanString rest).map (fun (s, rest) => (some s, rest))
      else refuse .keyNotString
    else if c = ',' then
      match skipSpace rest with
      | [] => refuse .endInValue
      | c :: rest =>
        if c = '"' then (scanString rest).map (fun (s, rest) => (some s, rest))
        else if c = closing then refuse .trailingComma
        else refuse .keyNotString
    else refuse .missingObjectSeparator

/-- What is left after the colon between a name and a value. -/
def scanColon (cs : List Char) : Except Error (List Char) :=
  match skipSpace cs with
  | [] => refuse .endInObject
  | c :: rest => if c = ':' then .ok rest else refuse .missingColon

/-! ### Values that nobody asks for -/

/-- What is left after the beginning of a value: a scalar, or the bracket that opens a container,
which is told. -/
def skipHead (cs : List Char) : Except Error (Option Char × List Char) :=
  match skipSpace cs with
  | [] => refuse .endInValue
  | 'n' :: rest => (scanWord "ull".toList rest).map (fun rest => (none, rest))
  | 't' :: rest => (scanWord "rue".toList rest).map (fun rest => (none, rest))
  | 'f' :: rest => (scanWord "alse".toList rest).map (fun rest => (none, rest))
  | '-' :: rest => (skipNumber rest).map (fun rest => (none, rest))
  | '"' :: rest => (skipString rest).map (fun rest => (none, rest))
  | c :: rest =>
    if c = '[' ∨ c = Char.ofNat 0x7B then .ok (some c, rest)
    else if c.isDigit then (skipNumber (c :: rest)).map (fun rest => (none, rest))
    else refuse .missingValue

/-- What is left after a name and the colon behind it. -/
def skipName (cs : List Char) : Except Error (List Char) :=
  match skipSpace cs with
  | [] => refuse .endInObject
  | c :: rest =>
    if c = '"' then do
      let rest ← skipString rest
      scanColon rest
    else refuse .keyNotString

/-- What is left after the values that end at the front of a text: the containers that stay open, the
innermost first, and the rest of the text from the next value in the innermost one. -/
def closeContainers : (opened : List Char) → List Char → Except Error (List Char × List Char)
  | [], cs => .ok ([], cs)
  | bracket :: opened, cs =>
    if bracket = '[' then
      match skipSpace cs with
      | [] => refuse .endInArray
      | ']' :: rest => closeContainers opened rest
      | ',' :: rest => .ok (bracket :: opened, rest)
      | _ => refuse .missingArraySeparator
    else
      match skipSpace cs with
      | [] => refuse .endInObject
      | c :: rest =>
        if c = closing then closeContainers opened rest
        else if c = ',' then (skipName rest).map (fun rest => (bracket :: opened, rest))
        else refuse .missingObjectSeparator

/-- What is left after a bracket that opens a container inside those that are open, in the same
form. -/
def openContainer (bracket : Char) (opened cs : List Char) :
    Except Error (List Char × List Char) :=
  if bracket = '[' then
    match skipSpace cs with
    | [] => refuse .endInArray
    | ']' :: rest => closeContainers opened rest
    | rest => .ok (bracket :: opened, rest)
  else
    match skipSpace cs with
    | [] => refuse .endInObject
    | c :: rest =>
      if c = closing then closeContainers opened rest
      else (skipName (c :: rest)).map (fun rest => (bracket :: opened, rest))

/-- What is left after a value and the containers that are open around it. -/
def skipValueInside : (bound opened : List Char) → List Char → Except Error (List Char)
  | [], _, _ => refuse .endInValue
  | _ :: bound, opened, cs => do
    let (bracket?, rest) ← skipHead cs
    let (opened, rest) ←
      match bracket? with
      | some bracket => openContainer bracket opened rest
      | none => closeContainers opened rest
    if opened.isEmpty then .ok rest else skipValueInside bound opened rest

/-- What is left after a value. -/
def skipValue (cs : List Char) : Except Error (List Char) :=
  skipValueInside cs [] cs

end Posting.Json
