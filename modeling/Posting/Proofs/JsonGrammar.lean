import Mathlib.Tactic
import Posting.Proofs.JsonCodecs

/-! # The grammar of JSON texts

What JSON texts are, apart from any way of reading them.

* A `Mark` is a character of a string as it is written, and `text?` is what marks stand for.
* A `Literal` is a number as it is written, and `Literal.value` is the number.
* A `Tree` is a value as it is written.  `Begins` says that a text begins with a value, or with the
  rest of a container, and how it goes on; `Writes` says that a text is a value as a whole.

`Writes.unique`: a text is written for one tree only. -/

namespace Posting.Json

open Text

/-! ### Strings -/

/-- A part of a string: a character that stands for itself, an escape with a letter, or one with four
hexadecimal digits. -/
inductive Mark
  | plain (c : Char) (allowed : c ≠ '"' ∧ c ≠ '\\' ∧ ¬ c.toNat < 0x20)
  | letter (c : Char) (known : (escaped? c).isSome = true)
  | unit (digits : List Char)
      (hexadecimal : digits.length = 4 ∧ ∀ d ∈ digits, (hexValue? d).isSome = true)

namespace Mark

/-- The characters that are written for a mark. -/
def text : Mark → List Char
  | plain c _ => [c]
  | letter c _ => ['\\', c]
  | unit digits _ => '\\' :: 'u' :: digits

theorem letter_ne_u {c : Char} (h : (escaped? c).isSome = true) : c ≠ 'u' := by
  rintro rfl
  cases h

end Mark

/-- The number that hexadecimal digits denote. -/
def hexNumber (digits : List Char) : Nat :=
  digits.foldl (fun n d => n * 16 + (hexValue? d).getD 0) 0

/-- Whether a number is the first half of a pair that makes up a character. -/
abbrev IsFirstHalf (n : Nat) : Prop :=
  0xD800 ≤ n ∧ n ≤ 0xDBFF

/-- Whether a number is the second half of a pair that makes up a character. -/
abbrev IsSecondHalf (n : Nat) : Prop :=
  0xDC00 ≤ n ∧ n ≤ 0xDFFF

/-- The character that a pair of halves makes up. -/
def pairedChar (first second : Nat) : Char :=
  Char.ofNat ((first - 0xD800) * 0x400 + (second - 0xDC00) + 0x10000)

/-- The characters that marks stand for, unless there is half a character among them. -/
def chars? : List Mark → Option (List Char)
  | [] => some []
  | .plain c _ :: marks => (chars? marks).map (c :: ·)
  | .letter c known :: marks => (chars? marks).map ((escaped? c).get known :: ·)
  | .unit digits _ :: marks =>
    if IsSecondHalf (hexNumber digits) then none
    else if IsFirstHalf (hexNumber digits) then
      match marks with
      | .unit digits' _ :: marks =>
        if IsSecondHalf (hexNumber digits') then
          (chars? marks).map (pairedChar (hexNumber digits) (hexNumber digits') :: ·)
        else none
      | _ => none
    else (chars? marks).map (Char.ofNat (hexNumber digits) :: ·)

theorem chars?_unit {digits : List Char}
    {hexadecimal : digits.length = 4 ∧ ∀ d ∈ digits, (hexValue? d).isSome = true}
    (hsecond : ¬ IsSecondHalf (hexNumber digits)) (hfirst : ¬ IsFirstHalf (hexNumber digits))
    (marks : List Mark) :
    chars? (.unit digits hexadecimal :: marks) =
      (chars? marks).map (Char.ofNat (hexNumber digits) :: ·) := by
  rw [chars?.eq_def]
  simp only [if_neg hsecond, if_neg hfirst]

theorem chars?_pair {digits digits' : List Char}
    {hexadecimal : digits.length = 4 ∧ ∀ d ∈ digits, (hexValue? d).isSome = true}
    {hexadecimal' : digits'.length = 4 ∧ ∀ d ∈ digits', (hexValue? d).isSome = true}
    (hfirst : IsFirstHalf (hexNumber digits)) (hsecond : IsSecondHalf (hexNumber digits'))
    (marks : List Mark) :
    chars? (.unit digits hexadecimal :: .unit digits' hexadecimal' :: marks) =
      (chars? marks).map (pairedChar (hexNumber digits) (hexNumber digits') :: ·) := by
  have hnot : ¬ IsSecondHalf (hexNumber digits) := fun h => by
    have := h.1
    have := hfirst.2
    omega
  rw [chars?.eq_def]
  simp only [if_neg hnot, if_pos hfirst, if_pos hsecond]

/-- The text that marks stand for. -/
def text? (marks : List Mark) : Option String :=
  (chars? marks).map String.ofList

/-- The characters between the quotes of a string. -/
def writtenMarks (marks : List Mark) : List Char :=
  marks.flatMap Mark.text

theorem writtenMarks_cons (mark : Mark) (marks : List Mark) :
    writtenMarks (mark :: marks) = mark.text ++ writtenMarks marks :=
  List.flatMap_cons

/-! ### Numbers -/

/-- The exponent of a number. -/
structure Exponent where
  letter : Char
  sign : List Char
  digits : List Char
  letter_eq : letter = 'e' ∨ letter = 'E'
  sign_eq : sign = [] ∨ sign = ['+'] ∨ sign = ['-']
  allDigits : AllDigits digits
  digits_ne : digits ≠ []

/-- A number as it is written: a sign, digits without superfluous zeros in front, digits behind a
point, and an exponent. -/
structure Literal where
  negative : Bool
  whole : List Char
  places : List Char
  exponent : Option Exponent
  allDigits_whole : AllDigits whole
  whole_ne : whole ≠ []
  whole_zero : whole.head? = some '0' → whole = ['0']
  allDigits_places : AllDigits places

namespace Exponent

/-- The characters of an exponent. -/
def text (e : Exponent) : List Char :=
  e.letter :: (e.sign ++ e.digits)

/-- The power of ten that an exponent stands for. -/
def power (e : Exponent) : ℤ :=
  if e.sign = ['-'] then -(readDigits e.digits) else readDigits e.digits

end Exponent

namespace Literal

def signText (l : Literal) : List Char :=
  if l.negative then ['-'] else []

def placesText (l : Literal) : List Char :=
  if l.places = [] then [] else '.' :: l.places

def exponentText (l : Literal) : List Char :=
  l.exponent.elim [] Exponent.text

/-- The characters of a number. -/
def text (l : Literal) : List Char :=
  l.signText ++ (l.whole ++ (l.placesText ++ l.exponentText))

/-- The number. -/
def value (l : Literal) : ℚ :=
  (if l.negative then -1 else 1) * readDigits (l.whole ++ l.places) *
    10 ^ (l.exponent.elim 0 Exponent.power - l.places.length)

/-- Whether a number is written as an integer: without places and without an exponent. -/
def IsInteger (l : Literal) : Prop :=
  l.places = [] ∧ l.exponent = none

theorem value_of_isInteger {l : Literal} (h : l.IsInteger) :
    l.value = if l.negative then -(readDigits l.whole : ℚ) else readDigits l.whole := by
  rw [value, h.1, h.2, List.append_nil]
  split <;> simp

end Literal

/-! ### Values -/

/-- A value as it is written. -/
inductive Tree
  | null
  | bool (b : Bool)
  | number (l : Literal)
  | string (marks : List Mark)
  | array (items : List Tree)
  | object (members : List (List Mark × Tree))

/-- What a text may begin with: a value, or the rest of a container, with a comma in front unless it
is the first that stands in it. -/
inductive Phrase
  | value (tree : Tree)
  | items (first : Bool) (trees : List Tree)
  | members (first : Bool) (members : List (List Mark × Tree))

/-- A text begins with a string and goes on with the rest. -/
def BeginsString (cs : List Char) (marks : List Mark) (rest : List Char) : Prop :=
  skipSpace cs = '"' :: (writtenMarks marks ++ '"' :: rest)

/-- The rest of a container goes on with `more`: behind a comma, unless nothing has gone before. -/
def Continues (first : Bool) (cs more : List Char) : Prop :=
  if first then more = cs else skipSpace cs = ',' :: more

def opening : Char :=
  Char.ofNat 0x7B

/-- A text begins with a phrase and goes on with the rest. -/
inductive Begins : List Char → Phrase → List Char → Prop
  | null {cs rest : List Char} (word : skipSpace cs = "null".toList ++ rest) :
      Begins cs (.value .null) rest
  | bool {cs rest : List Char} (b : Bool)
      (word : skipSpace cs = (if b then "true" else "false").toList ++ rest) :
      Begins cs (.value (.bool b)) rest
  | number {cs rest : List Char} {l : Literal} (digits : skipSpace cs = l.text ++ rest) :
      Begins cs (.value (.number l)) rest
  | string {cs rest : List Char} {marks : List Mark} (quoted : BeginsString cs marks rest) :
      Begins cs (.value (.string marks)) rest
  | array {cs inside rest : List Char} {trees : List Tree} (bracket : skipSpace cs = '[' :: inside)
      (items : Begins inside (.items true trees) rest) : Begins cs (.value (.array trees)) rest
  | object {cs inside rest : List Char} {entries : List (List Mark × Tree)}
      (bracket : skipSpace cs = opening :: inside)
      (members : Begins inside (.members true entries) rest) :
      Begins cs (.value (.object entries)) rest
  | noItem {first : Bool} {cs rest : List Char} (bracket : skipSpace cs = ']' :: rest) :
      Begins cs (.items first []) rest
  | item {first : Bool} {cs more between rest : List Char} {tree : Tree} {trees : List Tree}
      (comma : Continues first cs more) (value : Begins more (.value tree) between)
      (items : Begins between (.items false trees) rest) :
      Begins cs (.items first (tree :: trees)) rest
  | noMember {first : Bool} {cs rest : List Char} (bracket : skipSpace cs = closing :: rest) :
      Begins cs (.members first []) rest
  | member {first : Bool} {cs more named behind between rest : List Char} {key : List Mark}
      {tree : Tree} {entries : List (List Mark × Tree)} (comma : Continues first cs more)
      (name : BeginsString more key named) (colon : skipSpace named = ':' :: behind)
      (value : Begins behind (.value tree) between)
      (members : Begins between (.members false entries) rest) :
      Begins cs (.members first ((key, tree) :: entries)) rest

/-- A text is written for a tree, with nothing but space around it. -/
def Writes (text : String) (tree : Tree) : Prop :=
  ∃ rest, Begins text.toList (.value tree) rest ∧ skipSpace rest = []

/-! ### One reading of strings -/

theorem Mark.exists_text_eq_cons (mark : Mark) : ∃ c tail, mark.text = c :: tail ∧ c ≠ '"' := by
  cases mark with
  | plain c allowed => exact ⟨c, [], rfl, allowed.1⟩
  | letter c known => exact ⟨'\\', _, rfl, by decide⟩
  | unit digits hexadecimal => exact ⟨'\\', _, rfl, by decide⟩

theorem Mark.text_append_inj {mark mark' : Mark} {rest rest' : List Char}
    (h : mark.text ++ rest = mark'.text ++ rest') : mark = mark' ∧ rest = rest' := by
  cases mark with
  | plain c allowed =>
      cases mark' with
      | plain c' allowed' =>
          obtain ⟨rfl, rfl⟩ := List.cons.inj h
          exact ⟨rfl, rfl⟩
      | letter c' known' => exact absurd (List.cons.inj h).1 allowed.2.1
      | unit digits' hexadecimal' => exact absurd (List.cons.inj h).1 allowed.2.1
  | letter c known =>
      cases mark' with
      | plain c' allowed' => exact absurd (List.cons.inj h).1.symm allowed'.2.1
      | letter c' known' =>
          obtain ⟨rfl, rfl⟩ := List.cons.inj (List.cons.inj h).2
          exact ⟨rfl, rfl⟩
      | unit digits' hexadecimal' =>
          exact absurd (List.cons.inj (List.cons.inj h).2).1 (letter_ne_u known)
  | unit digits hexadecimal =>
      cases mark' with
      | plain c' allowed' => exact absurd (List.cons.inj h).1.symm allowed'.2.1
      | letter c' known' =>
          exact absurd (List.cons.inj (List.cons.inj h).2).1.symm (letter_ne_u known')
      | unit digits' hexadecimal' =>
          have hlength : digits.length = digits'.length :=
            hexadecimal.1.trans hexadecimal'.1.symm
          obtain ⟨rfl, rfl⟩ :=
            List.append_inj (List.cons.inj (List.cons.inj h).2).2 hlength
          exact ⟨rfl, rfl⟩

theorem writtenMarks_inj {marks marks' : List Mark} {rest rest' : List Char}
    (h : writtenMarks marks ++ '"' :: rest = writtenMarks marks' ++ '"' :: rest') :
    marks = marks' ∧ rest = rest' := by
  induction marks generalizing marks' with
  | nil =>
      cases marks' with
      | nil => exact ⟨rfl, (List.cons.inj h).2⟩
      | cons mark' marks' =>
          obtain ⟨c, tail, htext, hc⟩ := mark'.exists_text_eq_cons
          rw [writtenMarks_cons, htext] at h
          exact absurd (List.cons.inj h).1.symm hc
  | cons mark marks ih =>
      cases marks' with
      | nil =>
          obtain ⟨c, tail, htext, hc⟩ := mark.exists_text_eq_cons
          rw [writtenMarks_cons, htext] at h
          exact absurd (List.cons.inj h).1 hc
      | cons mark' marks' =>
          rw [writtenMarks_cons, writtenMarks_cons, List.append_assoc, List.append_assoc] at h
          obtain ⟨rfl, hmarks⟩ := Mark.text_append_inj h
          obtain ⟨rfl, hrest⟩ := ih hmarks
          exact ⟨rfl, hrest⟩

theorem BeginsString.unique {cs rest rest' : List Char} {marks marks' : List Mark}
    (h : BeginsString cs marks rest) (h' : BeginsString cs marks' rest') :
    marks = marks' ∧ rest = rest' :=
  writtenMarks_inj (List.cons.inj (h.symm.trans h')).2

/-! ### One reading of numbers -/

theorem head?_not_digit {cs : List Char} (h : startsWithDigit cs = false) :
    ∀ c ∈ cs.head?, c.isDigit = false := by
  cases cs with
  | nil => exact nofun
  | cons c tail =>
      rintro _ ⟨⟩
      exact h

theorem digits_append_inj {front front' back back' : List Char} (hfront : AllDigits front)
    (hfront' : AllDigits front') (hback : startsWithDigit back = false)
    (hback' : startsWithDigit back' = false) (h : front ++ back = front' ++ back') :
    front = front' ∧ back = back' := by
  have hsame : front = front' := by
    rw [← takeWhile_digits hfront (head?_not_digit hback), h,
      takeWhile_digits hfront' (head?_not_digit hback')]
  subst hsame
  exact ⟨rfl, List.append_cancel_left h⟩

theorem startsWithDigit_append {cs : List Char} (h : AllDigits cs) (hne : cs ≠ [])
    (rest : List Char) : startsWithDigit (cs ++ rest) = true := by
  obtain ⟨c, tail, hc, rfl⟩ := h.exists_cons hne
  exact hc

theorem sign_append_inj {sign sign' back back' : List Char} (hsign : ∀ c ∈ sign, c.isDigit = false)
    (hsign' : ∀ c ∈ sign', c.isDigit = false) (hback : startsWithDigit back = true)
    (hback' : startsWithDigit back' = true) (h : sign ++ back = sign' ++ back') :
    sign = sign' ∧ back = back' := by
  have htake {sign back : List Char} (hsign : ∀ c ∈ sign, c.isDigit = false)
      (hback : startsWithDigit back = true) :
      (sign ++ back).takeWhile (fun c => !c.isDigit) = sign := by
    cases back with
    | nil => cases hback
    | cons c tail =>
        have hc : c.isDigit = true := hback
        rw [List.takeWhile_append_of_pos (fun d hd => by rw [hsign d hd]; rfl),
          List.takeWhile_cons_of_neg (by simp [hc]), List.append_nil]
  have hsame : sign = sign' := by
    rw [← htake hsign hback, h, htake hsign' hback']
  subst hsame
  exact ⟨rfl, List.append_cancel_left h⟩

namespace Exponent

theorem sign_not_digit (e : Exponent) : ∀ c ∈ e.sign, c.isDigit = false := by
  rcases e.sign_eq with h | h | h <;> rw [h]
  · exact List.forall_mem_nil _
  · exact List.forall_mem_singleton.mpr rfl
  · exact List.forall_mem_singleton.mpr rfl

theorem text_append_inj {e e' : Exponent} {rest rest' : List Char}
    (hrest : startsWithDigit rest = false) (hrest' : startsWithDigit rest' = false)
    (h : e.text ++ rest = e'.text ++ rest') : e = e' ∧ rest = rest' := by
  simp only [text, List.cons_append, List.append_assoc] at h
  obtain ⟨hletter, h⟩ := List.cons.inj h
  obtain ⟨hsign, h⟩ := sign_append_inj e.sign_not_digit e'.sign_not_digit
    (startsWithDigit_append e.allDigits e.digits_ne rest)
    (startsWithDigit_append e'.allDigits e'.digits_ne rest') h
  obtain ⟨hdigits, hrest⟩ := digits_append_inj e.allDigits e'.allDigits hrest hrest' h
  refine ⟨?_, hrest⟩
  cases e
  cases e'
  cases hletter
  cases hsign
  cases hdigits
  rfl

theorem startsWithExponent_text (e : Exponent) (rest : List Char) :
    startsWithExponent (e.text ++ rest) = true := by
  rcases e.letter_eq with h | h <;> simp [text, startsWithExponent, h]

end Exponent

namespace Literal

variable {l l' : Literal} {rest rest' : List Char}

theorem signText_not_digit (l : Literal) : ∀ c ∈ l.signText, c.isDigit = false := by
  unfold signText
  split
  · exact List.forall_mem_singleton.mpr rfl
  · exact List.forall_mem_nil _

theorem signText_inj (h : l.signText = l'.signText) : l.negative = l'.negative := by
  unfold signText at h
  cases hn : l.negative <;> cases hn' : l'.negative <;> simp_all

theorem exponentText_append_inj (hrest : EndsNumber rest) (hrest' : EndsNumber rest')
    (h : l.exponentText ++ rest = l'.exponentText ++ rest') :
    l.exponent = l'.exponent ∧ rest = rest' := by
  unfold exponentText at h
  cases he : l.exponent with
  | none =>
      cases he' : l'.exponent with
      | none =>
          rw [he, he'] at h
          exact ⟨rfl, h⟩
      | some e' =>
          rw [he, he'] at h
          have hstarts := e'.startsWithExponent_text rest'
          rw [← show rest = e'.text ++ rest' from h, hrest.startsWithExponent] at hstarts
          cases hstarts
  | some e =>
      cases he' : l'.exponent with
      | none =>
          rw [he, he'] at h
          have hstarts := e.startsWithExponent_text rest
          rw [show e.text ++ rest = rest' from h, hrest'.startsWithExponent] at hstarts
          cases hstarts
      | some e' =>
          rw [he, he'] at h
          obtain ⟨rfl, hrest⟩ :=
            Exponent.text_append_inj hrest.startsWithDigit hrest'.startsWithDigit h
          exact ⟨rfl, hrest⟩

theorem startsWithDigit_exponentText (l : Literal) (hrest : EndsNumber rest) :
    startsWithDigit (l.exponentText ++ rest) = false := by
  unfold exponentText
  cases l.exponent with
  | none => exact hrest.startsWithDigit
  | some e => rcases e.letter_eq with h | h <;> simp [Exponent.text, startsWithDigit, h]

theorem head?_exponentText (l : Literal) (hrest : EndsNumber rest) :
    (l.exponentText ++ rest).head? ≠ some '.' := by
  unfold exponentText
  cases l.exponent with
  | none => exact fun h => (hrest '.' h).2.1 rfl
  | some e => rcases e.letter_eq with h | h <;> simp [Exponent.text, h]

theorem startsWithDigit_placesText (l : Literal) (hrest : EndsNumber rest) :
    startsWithDigit (l.placesText ++ (l.exponentText ++ rest)) = false := by
  unfold placesText
  split
  · exact l.startsWithDigit_exponentText hrest
  · rfl

theorem placesText_append_inj (hrest : EndsNumber rest) (hrest' : EndsNumber rest')
    (h : l.placesText ++ (l.exponentText ++ rest) = l'.placesText ++ (l'.exponentText ++ rest')) :
    l.places = l'.places ∧ l.exponentText ++ rest = l'.exponentText ++ rest' := by
  unfold placesText at h
  split at h
  · next hnil =>
      split at h
      · next hnil' => exact ⟨hnil.trans hnil'.symm, h⟩
      · exact absurd (congrArg List.head? h) (l.head?_exponentText hrest)
  · split at h
    · exact absurd (congrArg List.head? h).symm (l'.head?_exponentText hrest')
    · exact digits_append_inj l.allDigits_places l'.allDigits_places
        (l.startsWithDigit_exponentText hrest) (l'.startsWithDigit_exponentText hrest')
        (List.cons.inj h).2

/-- **A number is taken off a text in one way only**, unless it could go on. -/
theorem text_append_inj (hrest : EndsNumber rest) (hrest' : EndsNumber rest')
    (h : l.text ++ rest = l'.text ++ rest') : l = l' ∧ rest = rest' := by
  simp only [text, List.append_assoc] at h
  obtain ⟨hsign, h⟩ := sign_append_inj l.signText_not_digit l'.signText_not_digit
    (startsWithDigit_append l.allDigits_whole l.whole_ne _)
    (startsWithDigit_append l'.allDigits_whole l'.whole_ne _) h
  obtain ⟨hwhole, h⟩ := digits_append_inj l.allDigits_whole l'.allDigits_whole
    (l.startsWithDigit_placesText hrest) (l'.startsWithDigit_placesText hrest') h
  obtain ⟨hplaces, h⟩ := placesText_append_inj hrest hrest' h
  obtain ⟨hexponent, hrest⟩ := exponentText_append_inj hrest hrest' h
  have hnegative := signText_inj hsign
  refine ⟨?_, hrest⟩
  cases l
  cases l'
  cases hnegative
  cases hwhole
  cases hplaces
  cases hexponent
  rfl

end Literal

/-! ### One reading of values -/

/-- The kinds of values. -/
inductive Kind
  | null
  | bool
  | number
  | string
  | array
  | object

def Tree.kind : Tree → Kind
  | .null => .null
  | .bool _ => .bool
  | .number _ => .number
  | .string _ => .string
  | .array _ => .array
  | .object _ => .object

/-- The kind of the values that start with a character. -/
def Kind.of (c : Char) : Kind :=
  if c = 'n' then .null
  else if c = 't' ∨ c = 'f' then .bool
  else if c = '"' then .string
  else if c = '[' then .array
  else if c = opening then .object
  else .number

theorem Kind.of_digit {c : Char} (h : c.isDigit = true) : Kind.of c = .number := by
  have hne (d : Char) (hd : d.isDigit = false) : c ≠ d := ne_of_isDigit h hd
  simp [Kind.of, hne 'n' rfl, hne 't' rfl, hne 'f' rfl, hne '"' rfl, hne '[' rfl,
    hne opening (by decide)]

/-- The first character of a value tells its kind, and is no bracket that closes an array. -/
theorem Begins.kind_of {cs rest : List Char} {tree : Tree} (h : Begins cs (.value tree) rest) :
    ∃ c tail, skipSpace cs = c :: tail ∧ tree.kind = .of c ∧ c ≠ ']' := by
  cases h with
  | null word => exact ⟨'n', _, word, rfl, by decide⟩
  | bool b word => cases b <;> exact ⟨_, _, word, rfl, by decide⟩
  | number digits =>
      next l =>
        obtain ⟨c, tail, hc, hwhole⟩ := l.allDigits_whole.exists_cons l.whole_ne
        rw [digits, Literal.text, Literal.signText, hwhole]
        split
        · exact ⟨'-', _, rfl, rfl, by decide⟩
        · exact ⟨c, _, rfl, (Kind.of_digit hc).symm, ne_of_isDigit hc rfl⟩
  | string quoted => exact ⟨'"', _, quoted, rfl, by decide⟩
  | array bracket _ => exact ⟨'[', _, bracket, rfl, by decide⟩
  | object bracket _ => exact ⟨opening, _, bracket, rfl, by decide⟩

theorem Begins.kind_eq {cs rest rest' : List Char} {tree tree' : Tree}
    (h : Begins cs (.value tree) rest) (h' : Begins cs (.value tree') rest') :
    tree.kind = tree'.kind := by
  obtain ⟨c, tail, hc, hkind, -⟩ := h.kind_of
  obtain ⟨c', tail', hc', hkind', -⟩ := h'.kind_of
  obtain ⟨rfl, -⟩ := List.cons.inj (hc.symm.trans hc')
  rw [hkind, hkind']

/-- What follows a number is read off behind the space after it. -/
theorem EndsNumber.of_skipSpace {cs : List Char} (h : EndsNumber (skipSpace cs)) :
    EndsNumber cs := by
  cases cs with
  | nil => exact endsNumber_nil
  | cons c rest =>
      by_cases hc : isSpace c = true
      · exact endsNumber_of_isSpace hc rest
      · rwa [skipSpace_cons (by simpa using hc)] at h

theorem Continues.eq {first : Bool} {cs more more' : List Char} (h : Continues first cs more)
    (h' : Continues first cs more') : more = more' := by
  cases first with
  | true => exact Eq.trans h (Eq.symm h')
  | false => exact (List.cons.inj (Eq.trans (Eq.symm h) h')).2

theorem Begins.not_bracket {first : Bool} {cs more rest tail : List Char} {tree : Tree}
    (h : Begins more (.value tree) rest) (comma : Continues first cs more) :
    skipSpace cs ≠ ']' :: tail := by
  intro hbracket
  cases first with
  | true =>
      cases comma
      obtain ⟨c, _, hc, -, hne⟩ := h.kind_of
      exact hne (List.cons.inj (hc.symm.trans hbracket)).1
  | false =>
      have hcomma : skipSpace cs = ',' :: more := comma
      rw [hcomma] at hbracket
      exact absurd (List.cons.inj hbracket).1 (by decide)

theorem BeginsString.not_bracket {first : Bool} {cs more rest tail : List Char}
    {marks : List Mark} (h : BeginsString more marks rest) (comma : Continues first cs more) :
    skipSpace cs ≠ closing :: tail := by
  intro hbracket
  cases first with
  | true =>
      cases comma
      rw [BeginsString, hbracket] at h
      exact absurd (List.cons.inj h).1 (by decide)
  | false =>
      have hcomma : skipSpace cs = ',' :: more := comma
      rw [hcomma] at hbracket
      exact absurd (List.cons.inj hbracket).1 (by decide)

theorem Begins.endsNumber_of_items {cs rest : List Char} {trees : List Tree}
    (h : Begins cs (.items false trees) rest) : EndsNumber cs := by
  cases h with
  | noItem bracket => exact .of_skipSpace (bracket ▸ endsNumber_cons (by decide) _)
  | item comma _ _ => exact .of_skipSpace (comma ▸ endsNumber_cons (by decide) _)

theorem Begins.endsNumber_of_members {cs rest : List Char} {entries : List (List Mark × Tree)}
    (h : Begins cs (.members false entries) rest) : EndsNumber cs := by
  cases h with
  | noMember bracket => exact .of_skipSpace (bracket ▸ endsNumber_cons (by decide) _)
  | member comma _ _ _ _ => exact .of_skipSpace (comma ▸ endsNumber_cons (by decide) _)

/-- Two phrases for the same place of a text. -/
def Phrase.Alike : Phrase → Phrase → Prop
  | .value _, .value _ => True
  | .items first _, .items first' _ => first = first'
  | .members first _, .members first' _ => first = first'
  | _, _ => False

theorem Phrase.Alike.exists_value {tree : Tree} {phrase : Phrase}
    (h : (Phrase.value tree).Alike phrase) : ∃ tree', phrase = .value tree' := by
  cases phrase with
  | value tree' => exact ⟨tree', rfl⟩
  | _ => exact h.elim

/-- What may follow a phrase, so that it does not go on. -/
def Phrase.EndsBefore (rest : List Char) : Phrase → Prop
  | .value _ => EndsNumber rest
  | _ => True

/-- **A text begins with one phrase only.** -/
theorem Begins.unique {cs rest rest' : List Char} {phrase phrase' : Phrase}
    (h : Begins cs phrase rest) (h' : Begins cs phrase' rest') (alike : phrase.Alike phrase')
    (ends : phrase.EndsBefore rest) (ends' : phrase'.EndsBefore rest') :
    phrase = phrase' ∧ rest = rest' := by
  induction h generalizing phrase' rest' with
  | null word =>
      obtain ⟨tree', rfl⟩ := alike.exists_value
      have hkind := (Begins.null word).kind_eq h'
      cases h' with
      | null word' => exact ⟨rfl, List.append_cancel_left (word.symm.trans word')⟩
      | _ => cases hkind
  | bool b word =>
      obtain ⟨tree', rfl⟩ := alike.exists_value
      have hkind := (Begins.bool b word).kind_eq h'
      cases h' with
      | bool b' word' =>
          have hwords := word.symm.trans word'
          cases b <;> cases b' <;> simp_all
      | _ => cases hkind
  | number digits =>
      obtain ⟨tree', rfl⟩ := alike.exists_value
      have hkind := (Begins.number digits).kind_eq h'
      cases h' with
      | number digits' =>
          obtain ⟨rfl, hrest⟩ := Literal.text_append_inj ends ends' (digits.symm.trans digits')
          exact ⟨rfl, hrest⟩
      | _ => cases hkind
  | string quoted =>
      obtain ⟨tree', rfl⟩ := alike.exists_value
      have hkind := (Begins.string quoted).kind_eq h'
      cases h' with
      | string quoted' =>
          obtain ⟨rfl, hrest⟩ := quoted.unique quoted'
          exact ⟨rfl, hrest⟩
      | _ => cases hkind
  | array bracket items ih =>
      obtain ⟨tree', rfl⟩ := alike.exists_value
      have hkind := (Begins.array bracket items).kind_eq h'
      cases h' with
      | array bracket' items' =>
          obtain ⟨-, rfl⟩ := List.cons.inj (bracket.symm.trans bracket')
          obtain ⟨⟨⟩, hrest⟩ := ih items' rfl trivial trivial
          exact ⟨rfl, hrest⟩
      | _ => cases hkind
  | object bracket members ih =>
      obtain ⟨tree', rfl⟩ := alike.exists_value
      have hkind := (Begins.object bracket members).kind_eq h'
      cases h' with
      | object bracket' members' =>
          obtain ⟨-, rfl⟩ := List.cons.inj (bracket.symm.trans bracket')
          obtain ⟨⟨⟩, hrest⟩ := ih members' rfl trivial trivial
          exact ⟨rfl, hrest⟩
      | _ => cases hkind
  | noItem bracket =>
      cases h' with
      | noItem bracket' =>
          cases alike
          exact ⟨rfl, (List.cons.inj (bracket.symm.trans bracket')).2⟩
      | item comma' value' _ => exact absurd bracket (value'.not_bracket comma')
      | _ => exact alike.elim
  | item comma value items ihvalue ihitems =>
      cases h' with
      | noItem bracket' => exact absurd bracket' (value.not_bracket comma)
      | item comma' value' items' =>
          cases alike
          cases comma.eq comma'
          obtain ⟨⟨⟩, rfl⟩ :=
            ihvalue value' trivial items.endsNumber_of_items items'.endsNumber_of_items
          obtain ⟨⟨⟩, hrest⟩ := ihitems items' rfl trivial trivial
          exact ⟨rfl, hrest⟩
      | _ => exact alike.elim
  | noMember bracket =>
      cases h' with
      | noMember bracket' =>
          cases alike
          exact ⟨rfl, (List.cons.inj (bracket.symm.trans bracket')).2⟩
      | member comma' name' _ _ _ => exact absurd bracket (name'.not_bracket comma')
      | _ => exact alike.elim
  | member comma name colon value members ihvalue ihmembers =>
      cases h' with
      | noMember bracket' => exact absurd bracket' (name.not_bracket comma)
      | member comma' name' colon' value' members' =>
          cases alike
          cases comma.eq comma'
          obtain ⟨rfl, rfl⟩ := name.unique name'
          obtain ⟨-, rfl⟩ := List.cons.inj (colon.symm.trans colon')
          obtain ⟨⟨⟩, rfl⟩ :=
            ihvalue value' trivial members.endsNumber_of_members members'.endsNumber_of_members
          obtain ⟨⟨⟩, hrest⟩ := ihmembers members' rfl trivial trivial
          exact ⟨rfl, hrest⟩
      | _ => exact alike.elim

/-- **A text is written for one tree only.** -/
theorem Writes.unique {text : String} {tree tree' : Tree} (h : Writes text tree)
    (h' : Writes text tree') : tree = tree' := by
  obtain ⟨rest, hbegins, hrest⟩ := h
  obtain ⟨rest', hbegins', hrest'⟩ := h'
  have hends {rest : List Char} (hrest : skipSpace rest = []) : EndsNumber rest :=
    .of_skipSpace (hrest ▸ endsNumber_nil)
  obtain ⟨⟨⟩, -⟩ := hbegins.unique hbegins' trivial (hends hrest) (hends hrest')
  rfl

end Posting.Json
