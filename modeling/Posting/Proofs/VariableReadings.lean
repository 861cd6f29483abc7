import Mathlib.Tactic
import Posting.Proofs.Digits
import Posting.Proofs.Results
import Posting.Settings.Literal

/-! # What the text of a variable is read as

Which texts are words, integers and floating-point numbers, apart from any way of reading them, and
which text or number a setting becomes.

* `WritesInteger` and `WritesFloat` are the numbers that a text can be, and `IsWord` the words in
  any letter case.
* `Reads` is what the text of a variable is taken for: a truth value before an integer, an integer
  before a floating-point number, and only else itself.  `reads_iff` says that `Literal.ofText`
  takes it for just that.
* `ShownAs` is the text that a setting becomes, and `MonthOf` the number of a month. -/

namespace Posting.Settings

open Number Text

/-! ### Integers -/

/-- What may stand in front of a number. -/
def IsSign (sign : List Char) : Prop :=
  sign = [] ∨ sign = ['+'] ∨ sign = ['-']

/-- A text that does not begin with a sign. -/
def Unsigned (cs : List Char) : Prop :=
  cs.head? ≠ some '+' ∧ cs.head? ≠ some '-'

theorem splitSign_of_unsigned {cs : List Char} (h : Unsigned cs) : splitSign cs = (false, cs) := by
  unfold splitSign
  split
  · exact absurd rfl h.2
  · exact absurd rfl h.1
  · rfl

theorem splitSign_append {sign body : List Char} (hsign : IsSign sign) (hbody : Unsigned body) :
    splitSign (sign ++ body) = (decide (sign = ['-']), body) := by
  rcases hsign with rfl | rfl | rfl
  · exact splitSign_of_unsigned hbody
  · rfl
  · rfl

theorem exists_splitSign (cs : List Char) :
    ∃ sign, IsSign sign ∧ cs = sign ++ (splitSign cs).2 ∧
      (splitSign cs).1 = decide (sign = ['-']) := by
  unfold splitSign
  split
  · exact ⟨['-'], Or.inr (Or.inr rfl), rfl, rfl⟩
  · exact ⟨['+'], Or.inr (Or.inl rfl), rfl, rfl⟩
  · exact ⟨[], Or.inl rfl, rfl, rfl⟩

theorem unsigned_of_allDigits {cs : List Char} (h : AllDigits cs) : Unsigned cs :=
  ⟨fun hplus => h.not_mem (by decide) (List.mem_of_mem_head? hplus),
    fun hminus => h.not_mem (by decide) (List.mem_of_mem_head? hminus)⟩

/-- The number of digits behind a sign. -/
def signed (negative : Bool) (digits : List Char) : ℤ :=
  if negative then -(readDigits digits : ℤ) else readDigits digits

/-- A text that is an integer: digits, and a sign before them if one likes. -/
def WritesInteger (cs : List Char) (n : ℤ) : Prop :=
  ∃ sign digits, IsSign sign ∧ AllDigits digits ∧ digits ≠ [] ∧ cs = sign ++ digits ∧
    n = signed (decide (sign = ['-'])) digits

theorem writesInteger_iff (cs : List Char) (n : ℤ) :
    WritesInteger cs n ↔ (splitSign cs).2 ≠ [] ∧ AllDigits (splitSign cs).2 ∧
      signed (splitSign cs).1 (splitSign cs).2 = n := by
  constructor
  · rintro ⟨sign, digits, hsign, hdigits, hne, rfl, rfl⟩
    rw [splitSign_append hsign (unsigned_of_allDigits hdigits)]
    exact ⟨hne, hdigits, rfl⟩
  · rintro ⟨hne, hdigits, rfl⟩
    obtain ⟨sign, hsign, heq, hnegative⟩ := exists_splitSign cs
    exact ⟨sign, (splitSign cs).2, hsign, hdigits, hne, heq, by rw [hnegative]⟩

/-- **Integers of 64 bits are read** wherever they are written. -/
theorem integer?_eq_some_iff (cs : List Char) (n : ℤ) :
    integer? cs = some n ↔
      WritesInteger cs n ∧ -0x8000000000000000 ≤ n ∧ n < 0x8000000000000000 := by
  rw [writesInteger_iff]
  unfold integer? signed AllDigits
  rcases splitSign cs with ⟨negative, run⟩
  simp only [List.isEmpty_iff, Bool.not_eq_true', Bool.eq_false_iff, ne_eq, List.all_eq_true]
  by_cases hrun : run = [] ∨ ¬ ∀ c ∈ run, c.isDigit = true
  · rw [if_pos hrun]
    constructor
    · rintro ⟨⟩
    · rintro ⟨⟨hne, hdigits, -⟩, -⟩
      exact absurd hrun (by tauto)
  · rw [if_neg hrun, Option.ite_none_right_eq_some, Option.some.injEq]
    rw [not_or, not_not] at hrun
    constructor
    · rintro ⟨hbounds, rfl⟩
      exact ⟨⟨hrun.1, hrun.2, rfl⟩, hbounds⟩
    · rintro ⟨⟨-, -, rfl⟩, hbounds⟩
      exact ⟨hbounds, rfl⟩

/-! ### Words -/

/-- A text that is a word but for the case of its letters. -/
def IsWord (cs : List Char) (word : String) : Prop :=
  cs.map Char.toLower = word.toList

instance (cs : List Char) (word : String) : Decidable (IsWord cs word) :=
  inferInstanceAs (Decidable (_ = _))

theorem map_toLower_eq_iff (value word : String) :
    value.map Char.toLower = word ↔ IsWord value.toList word := by
  rw [IsWord, ← String.toList_inj, String.toList_map]

theorem IsWord.unique {cs : List Char} {word other : String} (h : IsWord cs word)
    (h' : IsWord cs other) : word = other :=
  String.toList_injective (h.symm.trans h')

theorem IsWord.head? {cs : List Char} {word : String} (h : IsWord cs word) :
    cs.head?.map Char.toLower = word.toList.head? := by
  rw [← List.head?_map, h]

theorem toNat_lt_of_isDigit {c : Char} (h : c.isDigit = true) : c.toNat < 65 := by
  simp only [Char.isDigit, Bool.and_eq_true, decide_eq_true_eq, UInt32.le_iff_toNat_le] at h
  exact Nat.lt_of_le_of_lt h.2 (by decide)

theorem toLower_of_lt {c : Char} (h : c.toNat < 65) : c.toLower = c := by
  have hnot : ¬ (c.val ≥ 'A'.val ∧ c.val ≤ 'Z'.val) := by
    simp only [ge_iff_le, UInt32.le_iff_toNat_le, not_and]
    intro hletter
    have : 65 ≤ c.toNat := hletter
    omega
  unfold Char.toLower
  exact dif_neg hnot

/-- A text that begins with a character in front of the letters. -/
def BeginsLow (cs : List Char) : Prop :=
  ∃ c, cs.head? = some c ∧ c.toNat < 65

theorem BeginsLow.not_isWord {cs : List Char} {word : String} (h : BeginsLow cs)
    (hword : 65 ≤ (word.toList.headD 'a').toNat) : ¬ IsWord cs word := by
  obtain ⟨c, hhead, hlow⟩ := h
  intro hspelt
  have hfirst := hspelt.head?
  rw [hhead, Option.map_some, toLower_of_lt hlow] at hfirst
  rw [List.headD_eq_head?_getD, ← hfirst, Option.getD_some] at hword
  omega

theorem BeginsLow.append {sign body : List Char} (hsign : IsSign sign) (hbody : BeginsLow body) :
    BeginsLow (sign ++ body) := by
  rcases hsign with rfl | rfl | rfl
  · exact hbody
  · exact ⟨'+', rfl, by decide⟩
  · exact ⟨'-', rfl, by decide⟩

theorem WritesInteger.beginsLow {cs : List Char} {n : ℤ} (h : WritesInteger cs n) :
    BeginsLow cs := by
  obtain ⟨sign, digits, hsign, hdigits, hne, rfl, -⟩ := h
  obtain ⟨c, tail, hc, rfl⟩ := hdigits.exists_cons hne
  exact .append hsign ⟨c, rfl, toNat_lt_of_isDigit hc⟩

/-! ### Floating-point numbers -/

/-- A text that is an exponent, or nothing in place of one. -/
def WritesExponent (cs : List Char) (power : ℤ) : Prop :=
  (cs = [] ∧ power = 0) ∨
    ∃ letter tail, (letter = 'e' ∨ letter = 'E') ∧ cs = letter :: tail ∧ WritesInteger tail power

theorem exponent?_eq_some_iff (cs : List Char) (power : ℤ) :
    exponent? cs = some power ↔ WritesExponent cs power := by
  unfold WritesExponent
  cases cs with
  | nil => simp [exponent?, eq_comm]
  | cons c tail =>
      have hcons : (∃ letter tail', (letter = 'e' ∨ letter = 'E') ∧ c :: tail = letter :: tail' ∧
          WritesInteger tail' power) ↔ (c = 'e' ∨ c = 'E') ∧ WritesInteger tail power := by
        constructor
        · rintro ⟨_, _, hletter, ⟨⟩, hwrites⟩
          exact ⟨hletter, hwrites⟩
        · rintro ⟨hletter, hwrites⟩
          exact ⟨c, tail, hletter, rfl, hwrites⟩
      rw [hcons, writesInteger_iff]
      unfold exponent? signed AllDigits
      rcases hsplit : splitSign tail with ⟨negative, run⟩
      simp [hsplit, and_assoc]

/-- A point with places behind it; without a point there are no places. -/
def IsPlaces (cs places : List Char) : Prop :=
  (cs = [] ∧ places = []) ∨ cs = '.' :: places

/-- A text that is a floating-point number without a sign: a word, or digits before a point, behind
it or both, and an exponent; the number is the nearest one to the decimal. -/
inductive WritesMagnitude (negative : Bool) : List Char → Binary64 → Prop
  | infinite {cs : List Char} (hword : IsWord cs "inf" ∨ IsWord cs "infinity") :
      WritesMagnitude negative cs (.infinite negative)
  | nan {cs : List Char} (hword : IsWord cs "nan") : WritesMagnitude negative cs .nan
  | decimal {whole point places exponent : List Char} {power : ℤ} (hwhole : AllDigits whole)
      (hpoint : IsPlaces point places) (hplaces : AllDigits places)
      (hsome : ¬ (whole = [] ∧ places = [])) (hexponent : WritesExponent exponent power) :
      WritesMagnitude negative (whole ++ (point ++ exponent))
        (.ofDecimal negative (readDigits (whole ++ places)) (power - places.length))

/-- A text that is a floating-point number, with a sign if one likes. -/
def WritesFloat (cs : List Char) (x : Binary64) : Prop :=
  ∃ sign body, IsSign sign ∧ cs = sign ++ body ∧ WritesMagnitude (decide (sign = ['-'])) body x

theorem WritesExponent.head? {cs : List Char} {power : ℤ} (h : WritesExponent cs power) :
    ∀ c ∈ cs.head?, c = 'e' ∨ c = 'E' := by
  rcases h with ⟨rfl, -⟩ | ⟨letter, tail, hletter, rfl, -⟩
  · exact nofun
  · rintro _ ⟨⟩
    exact hletter

section decimal

variable {whole point places exponent : List Char} {power : ℤ}

theorem head?_decimal (exponent : List Char) (hwhole : AllDigits whole)
    (hpoint : IsPlaces point places) (hsome : ¬ (whole = [] ∧ places = [])) :
    ∃ c, (whole ++ (point ++ exponent)).head? = some c ∧ (c.isDigit = true ∨ c = '.') := by
  by_cases hne : whole = []
  · rcases hpoint with ⟨-, hplaces⟩ | rfl
    · exact absurd ⟨hne, hplaces⟩ hsome
    · exact ⟨'.', by rw [hne]; rfl, Or.inr rfl⟩
  · obtain ⟨c, tail, hc, rfl⟩ := hwhole.exists_cons hne
    exact ⟨c, rfl, Or.inl hc⟩

theorem beginsLow_decimal (exponent : List Char) (hwhole : AllDigits whole)
    (hpoint : IsPlaces point places) (hsome : ¬ (whole = [] ∧ places = [])) :
    BeginsLow (whole ++ (point ++ exponent)) := by
  obtain ⟨c, hhead, hc⟩ := head?_decimal exponent hwhole hpoint hsome
  refine ⟨c, hhead, ?_⟩
  rcases hc with hdigit | rfl
  · exact toNat_lt_of_isDigit hdigit
  · decide

theorem WritesExponent.head?_not_digit (h : WritesExponent exponent power) :
    ∀ c ∈ exponent.head?, c.isDigit = false := by
  intro c hc
  rcases h.head? c hc with rfl | rfl <;> rfl

theorem head?_point_not_digit (hpoint : IsPlaces point places)
    (hexponent : WritesExponent exponent power) :
    ∀ c ∈ (point ++ exponent).head?, c.isDigit = false := by
  rcases hpoint with ⟨rfl, -⟩ | rfl
  · exact hexponent.head?_not_digit
  · rintro _ ⟨⟩
    rfl

/-- The places at the front of a text behind the digits before a point, and what follows them. -/
def takePlaces (cs : List Char) : List Char × List Char :=
  match cs with
  | '.' :: rest => (rest.takeWhile Char.isDigit, rest.dropWhile Char.isDigit)
  | _ => ([], cs)

theorem takePlaces_append (hpoint : IsPlaces point places) (hplaces : AllDigits places)
    (hexponent : WritesExponent exponent power) :
    takePlaces (point ++ exponent) = (places, exponent) := by
  have hdigit := hexponent.head?_not_digit
  rcases hpoint with ⟨rfl, rfl⟩ | rfl
  · unfold takePlaces
    split
    · next heq =>
        rw [List.nil_append] at heq
        rcases hexponent.head? '.' (by rw [heq]; rfl) with h | h <;> cases h
    · rfl
  · show (List.takeWhile Char.isDigit (places ++ exponent),
      List.dropWhile Char.isDigit (places ++ exponent)) = (places, exponent)
    rw [takeWhile_digits hplaces hdigit, dropWhile_digits hplaces hdigit]

end decimal

theorem exists_takePlaces (cs : List Char) :
    ∃ point, IsPlaces point (takePlaces cs).1 ∧ AllDigits (takePlaces cs).1 ∧
      cs = point ++ (takePlaces cs).2 := by
  unfold takePlaces
  split
  · next rest =>
      refine ⟨'.' :: rest.takeWhile Char.isDigit, Or.inr rfl, allDigits_takeWhile rest, ?_⟩
      rw [List.cons_append, List.takeWhile_append_dropWhile]
  · exact ⟨[], Or.inl ⟨rfl, rfl⟩, nofun, rfl⟩

/-- The number of a decimal. -/
def decimal? (negative : Bool) (cs : List Char) : Option Binary64 :=
  let whole := cs.takeWhile Char.isDigit
  let (places, rest) := takePlaces (cs.dropWhile Char.isDigit)
  if whole = [] ∧ places = [] then none
  else
    (exponent? rest).map fun power =>
      .ofDecimal negative (readDigits (whole ++ places)) (power - places.length)

/-- A text that is no word is read as a decimal. -/
theorem magnitude?_eq (negative : Bool) (cs : List Char) :
    magnitude? negative cs =
      if IsWord cs "inf" ∨ IsWord cs "infinity" then some (.infinite negative)
      else if IsWord cs "nan" then some .nan
      else decimal? negative cs := by
  have hword (word : String) : String.ofList (cs.map Char.toLower) = word ↔ IsWord cs word := by
    rw [IsWord, ← String.toList_inj, String.toList_ofList]
  unfold magnitude?
  simp only [hword, List.isEmpty_iff]
  rfl

theorem writesMagnitude_of_decimal? {negative : Bool} {cs : List Char} {x : Binary64}
    (h : decimal? negative cs = some x) : WritesMagnitude negative cs x := by
  obtain ⟨point, hpoint, hplaces, hrest⟩ := exists_takePlaces (cs.dropWhile Char.isDigit)
  have hcs := List.takeWhile_append_dropWhile (p := Char.isDigit) (l := cs)
  unfold decimal? at h
  simp only [Option.ite_none_left_eq_some, Option.map_eq_some_iff] at h
  obtain ⟨hsome, power, hpower, rfl⟩ := h
  have hexponent := (exponent?_eq_some_iff _ _).mp hpower
  have hwrites : WritesMagnitude negative _ _ :=
    .decimal (allDigits_takeWhile cs) hpoint hplaces hsome hexponent
  rwa [← hrest, hcs] at hwrites

theorem magnitude?_eq_some_iff (negative : Bool) (cs : List Char) (x : Binary64) :
    magnitude? negative cs = some x ↔ WritesMagnitude negative cs x := by
  rw [magnitude?_eq]
  constructor
  · intro h
    split_ifs at h with hinfinite hnan
    · cases h
      exact .infinite hinfinite
    · cases h
      exact .nan hnan
    · exact writesMagnitude_of_decimal? h
  · intro h
    cases h with
    | infinite hword => rw [if_pos hword]
    | nan hword =>
        have hinfinite : ¬ (IsWord cs "inf" ∨ IsWord cs "infinity") := by
          rintro (h | h)
          · exact absurd (hword.unique h) (by decide)
          · exact absurd (hword.unique h) (by decide)
        rw [if_neg hinfinite, if_pos hword]
    | @decimal whole point places exponent power hwhole hpoint hplaces hsome hexponent =>
        have hlow := beginsLow_decimal exponent hwhole hpoint hsome
        have hfollows := head?_point_not_digit hpoint hexponent
        have hinfinite : ¬ (IsWord (whole ++ (point ++ exponent)) "inf" ∨
            IsWord (whole ++ (point ++ exponent)) "infinity") :=
          not_or.mpr ⟨hlow.not_isWord (by decide), hlow.not_isWord (by decide)⟩
        rw [if_neg hinfinite, if_neg (hlow.not_isWord (by decide)), decimal?,
          takeWhile_digits hwhole hfollows, dropWhile_digits hwhole hfollows,
          takePlaces_append hpoint hplaces hexponent]
        simp only
        rw [if_neg hsome, (exponent?_eq_some_iff _ _).mpr hexponent, Option.map_some]

theorem WritesMagnitude.unsigned {negative : Bool} {cs : List Char} {x : Binary64}
    (h : WritesMagnitude negative cs x) : Unsigned cs := by
  have hword {word : String} (hword : IsWord cs word) {sign : Char}
      (hne : word.toList.head? ≠ some sign.toLower) : cs.head? ≠ some sign := by
    intro hhead
    have := hword.head?
    rw [hhead, Option.map_some] at this
    exact hne this.symm
  cases h with
  | infinite h =>
      rcases h with h | h
      · exact ⟨hword h (by decide), hword h (by decide)⟩
      · exact ⟨hword h (by decide), hword h (by decide)⟩
  | nan h => exact ⟨hword h (by decide), hword h (by decide)⟩
  | @decimal whole point places exponent power hwhole hpoint hplaces hsome hexponent =>
      obtain ⟨c, hhead, hc⟩ := head?_decimal exponent hwhole hpoint hsome
      have hne {sign : Char} (hsign : ¬ (sign.isDigit = true ∨ sign = '.')) :
          (whole ++ (point ++ exponent)).head? ≠ some sign := by
        rw [hhead, ne_eq, Option.some.injEq]
        rintro rfl
        exact hsign hc
      exact ⟨hne (by decide), hne (by decide)⟩

/-- **Floating-point numbers are read** wherever they are written. -/
theorem float?_eq_some_iff (cs : List Char) (x : Binary64) :
    float? cs = some x ↔ WritesFloat cs x := by
  unfold float?
  constructor
  · intro h
    obtain ⟨sign, hsign, hcs, hnegative⟩ := exists_splitSign cs
    refine ⟨sign, (splitSign cs).2, hsign, hcs, ?_⟩
    rw [← hnegative]
    exact (magnitude?_eq_some_iff _ _ _).mp h
  · rintro ⟨sign, body, hsign, rfl, hwrites⟩
    rw [splitSign_append hsign hwrites.unsigned]
    exact (magnitude?_eq_some_iff _ _ _).mpr hwrites

theorem WritesFloat.isWord_or_beginsLow {cs : List Char} {x : Binary64} (h : WritesFloat cs x) :
    IsWord cs "inf" ∨ IsWord cs "infinity" ∨ IsWord cs "nan" ∨ BeginsLow cs := by
  obtain ⟨sign, body, hsign, rfl, hmagnitude⟩ := h
  have hsigned : sign = [] ∨ BeginsLow (sign ++ body) := by
    rcases hsign with rfl | rfl | rfl
    · exact Or.inl rfl
    · exact Or.inr ⟨'+', rfl, by decide⟩
    · exact Or.inr ⟨'-', rfl, by decide⟩
  rcases hsigned with rfl | hlow
  · rw [List.nil_append]
    cases hmagnitude with
    | infinite hword => exact hword.elim Or.inl fun hlong => Or.inr (Or.inl hlong)
    | nan hword => exact Or.inr (Or.inr (Or.inl hword))
    | decimal hwhole hpoint hplaces hsome hexponent =>
        exact Or.inr (Or.inr (Or.inr (beginsLow_decimal _ hwhole hpoint hsome)))
  · exact Or.inr (Or.inr (Or.inr hlow))

/-! ### Readings -/

/-- The word for a truth value. -/
def truthWord (b : Bool) : String :=
  if b then "true" else "false"

/-- A text that is an integer of 64 bits. -/
def WritesWord64 (cs : List Char) (n : ℤ) : Prop :=
  WritesInteger cs n ∧ -0x8000000000000000 ≤ n ∧ n < 0x8000000000000000

/-- What the text of a variable is taken for: a truth value if it is the word for one, else an
integer of 64 bits if it is one, else a floating-point number if it is one, and else itself. -/
inductive Reads (value : String) : Literal → Prop
  | truth {b : Bool} (h : IsWord value.toList (truthWord b)) : Reads value (.truth b)
  | integer {n : ℤ} (hword : ∀ b, ¬ IsWord value.toList (truthWord b))
      (h : WritesWord64 value.toList n) : Reads value (.integer n)
  | float {x : Binary64} (hword : ∀ b, ¬ IsWord value.toList (truthWord b))
      (hinteger : ∀ n, ¬ WritesWord64 value.toList n) (h : WritesFloat value.toList x) :
      Reads value (.float x)
  | text (hword : ∀ b, ¬ IsWord value.toList (truthWord b))
      (hinteger : ∀ n, ¬ WritesWord64 value.toList n)
      (hfloat : ∀ x, ¬ WritesFloat value.toList x) : Reads value (.text value)

theorem ofText_eq (value : String) :
    Literal.ofText value =
      if IsWord value.toList (truthWord true) then .truth true
      else if IsWord value.toList (truthWord false) then .truth false
      else
        match integer? value.toList with
        | some n => .integer n
        | none =>
          match float? value.toList with
          | some x => .float x
          | none => .text value := by
  unfold Literal.ofText
  simp only [map_toLower_eq_iff]
  rfl

/-- **A text is taken for what it is read as.** -/
theorem reads_iff (value : String) (l : Literal) : Reads value l ↔ Literal.ofText value = l := by
  have hnoInteger : integer? value.toList = none ↔ ∀ n, ¬ WritesWord64 value.toList n := by
    simp only [Option.eq_none_iff_forall_ne_some, ne_eq, integer?_eq_some_iff, WritesWord64]
  have hnoFloat : float? value.toList = none ↔ ∀ x, ¬ WritesFloat value.toList x := by
    simp only [Option.eq_none_iff_forall_ne_some, ne_eq, float?_eq_some_iff]
  rw [ofText_eq]
  constructor
  · intro h
    cases h with
    | @truth b h =>
        cases b with
        | true => rw [if_pos h]
        | false =>
            have hnot : ¬ IsWord value.toList (truthWord true) :=
              fun htrue => absurd (htrue.unique h) (by decide)
            rw [if_neg hnot, if_pos h]
    | integer hword h =>
        rw [if_neg (hword true), if_neg (hword false), (integer?_eq_some_iff _ _).mpr h]
    | float hword hinteger h =>
        rw [if_neg (hword true), if_neg (hword false), hnoInteger.mpr hinteger,
          (float?_eq_some_iff _ _).mpr h]
    | text hword hinteger hfloat =>
        rw [if_neg (hword true), if_neg (hword false), hnoInteger.mpr hinteger,
          hnoFloat.mpr hfloat]
  · rintro rfl
    split_ifs with htrue hfalse
    · exact .truth htrue
    · exact .truth hfalse
    · have hword : ∀ b, ¬ IsWord value.toList (truthWord b) := Bool.forall_bool.mpr ⟨hfalse, htrue⟩
      cases hn : integer? value.toList with
      | some n => exact .integer hword ((integer?_eq_some_iff _ _).mp hn)
      | none =>
          cases hx : float? value.toList with
          | some x => exact .float hword (hnoInteger.mp hn) ((float?_eq_some_iff _ _).mp hx)
          | none => exact .text hword (hnoInteger.mp hn) (hnoFloat.mp hx)

/-! ### What settings become -/

/-- The text that a setting becomes: the word for a truth value in lower case, the digits of an
integer, a floating-point number without an exponent, and every other text as it is. -/
inductive ShownAs (value : String) : String → Prop
  | truth {b : Bool} (h : Reads value (.truth b)) : ShownAs value (truthWord b)
  | integer {n : ℤ} (h : Reads value (.integer n)) :
      ShownAs value (String.ofList (Text.integer n))
  | float {x : Binary64} (h : Reads value (.float x)) : ShownAs value x.positional
  | verbatim (h : Reads value (.text value)) : ShownAs value value

/-- **The text of a setting** is the one that stands for the text of its variable. -/
theorem shownAs_iff (value shown : String) :
    ShownAs value shown ↔ (Literal.ofText value).asText = shown := by
  constructor
  · intro h
    cases h with
    | truth h => rw [(reads_iff _ _).mp h]; rfl
    | integer h => rw [(reads_iff _ _).mp h]; rfl
    | float h => rw [(reads_iff _ _).mp h]; rfl
    | verbatim h => rw [(reads_iff _ _).mp h]; rfl
  · rintro rfl
    have h := (reads_iff value _).mpr rfl
    generalize Literal.ofText value = l at h
    cases h with
    | truth hword => exact .truth (.truth hword)
    | integer hword hn => exact .integer (.integer hword hn)
    | float hword hinteger hx => exact .float (.float hword hinteger hx)
    | text hword hinteger hfloat => exact .verbatim (.text hword hinteger hfloat)

/-- The natural number that a floating-point number is rounded to: the nearest one, of two equally
near the greater one, and zero for what is negative or no number. -/
def RoundsTo : Binary64 → ℕ → Prop
  | .finite false mantissa exponent, n =>
    (n : ℚ) ≤ mantissa * 2 ^ exponent + 1 / 2 ∧ mantissa * 2 ^ exponent + 1 / 2 < (n + 1 : ℚ)
  | .infinite false, _ => False
  | _, n => n = 0

/-- The number of a month that a setting becomes, which has 32 bits: that of an integer, a
floating-point number rounded, one for a word that says yes, and zero for one that says no. -/
inductive MonthOf (value : String) : ℕ → Prop
  | integer {n : ℕ} (h : Reads value (.integer n)) (hsize : n < 0x100000000) : MonthOf value n
  | float {x : Binary64} {n : ℕ} (h : Reads value (.float x)) (hrounds : RoundsTo x n)
      (hsize : n < 0x100000000) : MonthOf value n
  | yes (h : IsWord value.toList "true" ∨ IsWord value.toList "on" ∨ IsWord value.toList "yes") :
      MonthOf value 1
  | no (h : IsWord value.toList "false" ∨ IsWord value.toList "off" ∨ IsWord value.toList "no") :
      MonthOf value 0

/-- A power of two is shared out between a numerator and a denominator. -/
theorem div_scale (num den : ℕ) (exponent : ℤ) :
    ((Binary64.scale num den exponent).1 : ℚ) / (Binary64.scale num den exponent).2 =
      num / den * 2 ^ exponent := by
  unfold Binary64.scale
  cases exponent with
  | ofNat k => simp [mul_div_right_comm]
  | negSucc k =>
      have hup : (Int.negSucc k).toNat = 0 := rfl
      have hdown : (-Int.negSucc k).toNat = k + 1 := rfl
      simp only [hup, hdown, Nat.pow_eq, zpow_negSucc]
      push_cast
      rw [mul_one, div_mul_eq_div_div, div_eq_mul_inv]

theorem halfUp_eq_iff (num : ℕ) {den : ℕ} (hden : 0 < den) (n : ℕ) :
    halfUp num den = n ↔
      (n : ℚ) ≤ (num : ℚ) / den + 1 / 2 ∧ (num : ℚ) / den + 1 / 2 < (n + 1 : ℚ) := by
  have hpos : (0 : ℚ) < 2 * den := by positivity
  have hhalf : (num : ℚ) / den + 1 / 2 = (2 * num + den) / (2 * den) := by
    have : (den : ℚ) ≠ 0 := by positivity
    field_simp
  have hfloor : (2 * num + den) / (2 * den) = n ↔
      n * (2 * den) ≤ 2 * num + den ∧ 2 * num + den < (n + 1) * (2 * den) := by
    rw [← Nat.le_div_iff_mul_le (by omega), ← Nat.div_lt_iff_lt_mul (by omega)]
    omega
  rw [hhalf, le_div_iff₀ hpos, div_lt_iff₀ hpos, halfUp, hfloor]
  constructor
  · rintro ⟨hlow, hhigh⟩
    constructor
    · exact_mod_cast hlow
    · exact_mod_cast hhigh
  · rintro ⟨hlow, hhigh⟩
    constructor
    · exact_mod_cast hlow
    · exact_mod_cast hhigh

theorem wholePart_eq_iff (x : Binary64) {n : ℕ} (hsize : n < 0x100000000) :
    wholePart x = n ↔ RoundsTo x n := by
  cases x with
  | nan => exact eq_comm
  | infinite negative =>
      cases negative with
      | true => exact eq_comm
      | false =>
          simp only [wholePart, RoundsTo, Bool.false_eq_true, if_false, iff_false]
          omega
  | finite negative mantissa exponent =>
      cases negative with
      | true => exact eq_comm
      | false =>
          have hden : 0 < (Binary64.scale mantissa 1 exponent).2 := by
            simp [Binary64.scale]
          have hround := halfUp_eq_iff (Binary64.scale mantissa 1 exponent).1 hden n
          rw [div_scale, Nat.cast_one, div_one] at hround
          rw [RoundsTo, ← hround]
          simp only [wholePart, Bool.false_eq_true, if_false]
          omega

theorem reads_text_of_isWord {value word : String} (h : IsWord value.toList word)
    (hword : word ∈ ["on", "yes", "off", "no"]) : Reads value (.text value) := by
  have hletters : ∀ other ∈ ["on", "yes", "off", "no"], 65 ≤ (other.toList.headD 'a').toNat := by
    decide
  have hletter := hletters word hword
  have hother {other : String} (hne : other ∉ ["on", "yes", "off", "no"]) :
      ¬ IsWord value.toList other := by
    intro h'
    rw [← h.unique h'] at hne
    exact hne hword
  refine .text ?_ ?_ ?_
  · exact Bool.forall_bool.mpr ⟨hother (by decide), hother (by decide)⟩
  · rintro n ⟨hinteger, -⟩
    exact hinteger.beginsLow.not_isWord hletter h
  · intro x hfloat
    rcases hfloat.isWord_or_beginsLow with h' | h' | h' | hlow
    · exact hother (by decide) h'
    · exact hother (by decide) h'
    · exact hother (by decide) h'
    · exact hlow.not_isWord hletter h

theorem natural_text (value : String) :
    (Literal.text value).natural =
      if IsWord value.toList "true" ∨ IsWord value.toList "on" ∨ IsWord value.toList "yes" then
        .ok 1
      else if
          IsWord value.toList "false" ∨ IsWord value.toList "off" ∨ IsWord value.toList "no" then
        .ok 0
      else .error (.notInteger value) := by
  rw [Literal.natural]
  simp only [map_toLower_eq_iff]

theorem natural_of_yes {value : String}
    (h : IsWord value.toList "true" ∨ IsWord value.toList "on" ∨ IsWord value.toList "yes") :
    (Literal.ofText value).natural = .ok 1 := by
  rcases h with h | h
  · rw [(reads_iff value (.truth true)).mp (.truth h)]
    rfl
  · have htext : Reads value (.text value) := by
      rcases h with h | h
      · exact reads_text_of_isWord h (by decide)
      · exact reads_text_of_isWord h (by decide)
    rw [(reads_iff _ _).mp htext, natural_text, if_pos (Or.inr h)]

theorem natural_of_no {value : String}
    (h : IsWord value.toList "false" ∨ IsWord value.toList "off" ∨ IsWord value.toList "no") :
    (Literal.ofText value).natural = .ok 0 := by
  have hnot : ¬ (IsWord value.toList "true" ∨ IsWord value.toList "on" ∨
      IsWord value.toList "yes") := by
    rcases h with h | h | h
    all_goals rintro (h' | h' | h') <;> exact absurd (h.unique h') (by decide)
  rcases h with h | h
  · rw [(reads_iff value (.truth false)).mp (.truth h)]
    rfl
  · have htext : Reads value (.text value) := by
      rcases h with h | h
      · exact reads_text_of_isWord h (by decide)
      · exact reads_text_of_isWord h (by decide)
    rw [(reads_iff _ _).mp htext, natural_text, if_neg hnot, if_pos (Or.inr h)]

theorem month_eq_ok_iff (l : Literal) (n : ℕ) :
    l.month = .ok n ↔ l.natural = .ok n ∧ n < 0x100000000 := by
  rw [Literal.month, bind_eq_ok_iff]
  constructor
  · rintro ⟨m, hm, h⟩
    split_ifs at h with hsize
    cases h
    exact ⟨hm, hsize⟩
  · rintro ⟨hm, hsize⟩
    exact ⟨n, hm, if_pos hsize⟩

/-- **The number of a month** is the one that the text of its variable stands for. -/
theorem monthOf_iff (value : String) (n : ℕ) :
    MonthOf value n ↔ (Literal.ofText value).month = .ok n := by
  rw [month_eq_ok_iff]
  constructor
  · intro h
    cases h with
    | integer h hsize =>
        rw [(reads_iff _ _).mp h, Literal.natural, if_pos (Int.natCast_nonneg n), Int.toNat_natCast]
        exact ⟨rfl, hsize⟩
    | float h hrounds hsize =>
        rw [(reads_iff _ _).mp h, Literal.natural, (wholePart_eq_iff _ hsize).mpr hrounds]
        exact ⟨rfl, hsize⟩
    | yes h => exact ⟨natural_of_yes h, by decide⟩
    | no h => exact ⟨natural_of_no h, by decide⟩
  · rintro ⟨hnatural, hsize⟩
    have h := (reads_iff value _).mpr rfl
    generalize Literal.ofText value = l at h hnatural
    cases h with
    | @truth b hb =>
        cases b with
        | true =>
            cases hnatural
            exact .yes (Or.inl hb)
        | false =>
            cases hnatural
            exact .no (Or.inl hb)
    | @integer k hno hk =>
        rw [Literal.natural] at hnatural
        split_ifs at hnatural with hpos
        cases hnatural
        refine .integer (.integer hno ?_) hsize
        rwa [Int.toNat_of_nonneg hpos]
    | @float x hno hinteger hx =>
        rw [Literal.natural, Except.ok.injEq] at hnatural
        exact .float (.float hno hinteger hx) ((wholePart_eq_iff x hsize).mp hnatural) hsize
    | text hno hinteger hfloat =>
        rw [natural_text] at hnatural
        split_ifs at hnatural with hyes hnot
        · cases hnatural
          exact .yes hyes
        · cases hnatural
          exact .no hnot

end Posting.Settings
