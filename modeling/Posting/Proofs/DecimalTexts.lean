import Mathlib.Tactic
import Posting.Proofs.DecimalSums
import Posting.Proofs.MoneyText

/-! # Decimals as money

`Decimal.moneyText` takes any sign, any mantissa of 96 bits and any count of places, and writes two
places if it can.

* A `Numeral` is a decimal numeral taken apart into sign, whole digits and places.  Its text tells
  all of them (`Numeral.text_injective`), so that a text denotes one number at most.
* `IsRounded` is the number of hundredths nearest to a number, with ties to even; it is said without
  the digits that `round` drops.
* `Decimal.money` is the decimal whose digits are written.  Rounding comes first
  (`isRounded_round`), and widening changes no value and stops only where the mantissa is full
  (`widened_widenBy`).

`Decimal.showsMoney_moneyText` puts these together. -/

namespace Posting

open Number Text

/-! ### Numerals -/

/-- A decimal numeral: digits before a point and, unless there are none, behind it. -/
structure Numeral where
  negative : Bool
  whole : List Char
  places : List Char
  whole_digits : AllDigits whole
  whole_ne_nil : whole ≠ []
  places_digits : AllDigits places

namespace Numeral

/-- The point and the places, unless there are none. -/
def fraction (places : List Char) : List Char :=
  if places = [] then [] else '.' :: places

/-- The text of a numeral, which has no sign but a minus. -/
def text (numeral : Numeral) : List Char :=
  (if numeral.negative then ['-'] else []) ++ (numeral.whole ++ fraction numeral.places)

def value (numeral : Numeral) : ℚ :=
  if numeral.negative then -fixedPoint numeral.whole numeral.places
  else fixedPoint numeral.whole numeral.places

theorem fraction_not_digit (places : List Char) :
    ∀ c ∈ (fraction places).head?, c.isDigit = false := by
  unfold fraction
  intro c hc
  split at hc
  · cases hc
  · cases hc
    rfl

theorem fraction_injective : Function.Injective fraction := by
  intro places other h
  unfold fraction at h
  by_cases hplaces : places = [] <;> by_cases hother : other = []
  · rw [hplaces, hother]
  · rw [if_pos hplaces, if_neg hother] at h
    cases h
  · rw [if_neg hplaces, if_pos hother] at h
    cases h
  · rw [if_neg hplaces, if_neg hother] at h
    exact (List.cons.inj h).2

theorem takeWhile_body (numeral : Numeral) :
    (numeral.whole ++ fraction numeral.places).takeWhile Char.isDigit = numeral.whole :=
  takeWhile_digits numeral.whole_digits (fraction_not_digit numeral.places)

theorem head?_body (numeral : Numeral) :
    (numeral.whole ++ fraction numeral.places).head? ≠ some '-' := by
  obtain ⟨c, tail, hc, heq⟩ := numeral.whole_digits.exists_cons numeral.whole_ne_nil
  rw [heq, List.cons_append, List.head?_cons, ne_eq, Option.some.injEq]
  exact ne_of_isDigit hc rfl

theorem negative_iff_head? (numeral : Numeral) :
    numeral.negative = true ↔ numeral.text.head? = some '-' := by
  unfold text
  by_cases h : numeral.negative = true
  · simp [h]
  · simp only [h, Bool.false_eq_true, if_false, List.nil_append, false_iff]
    exact numeral.head?_body

/-- **A text is that of one numeral at most.** -/
theorem text_injective : Function.Injective text := by
  intro numeral other h
  have hnegative : numeral.negative = other.negative := by
    rw [Bool.eq_iff_iff, negative_iff_head?, negative_iff_head?, h]
  have hbody : numeral.whole ++ fraction numeral.places =
      other.whole ++ fraction other.places := by
    unfold text at h
    rw [hnegative] at h
    exact List.append_cancel_left h
  have hwhole : numeral.whole = other.whole := by
    rw [← numeral.takeWhile_body, hbody, other.takeWhile_body]
  rw [hwhole] at hbody
  have hplaces := fraction_injective (List.append_cancel_left hbody)
  cases numeral
  cases other
  simp_all

end Numeral

/-! ### Rounding -/

namespace Number

/-- What rounding leaves over is half of the denominator at most, and less than that if the result
is odd. -/
theorem halfEven_spec (num : ℕ) {den : ℕ} (hden : 0 < den) :
    ∃ gap : ℤ, (num : ℤ) = halfEven num den * den + gap ∧ 2 * gap.natAbs ≤ den ∧
      (2 * gap.natAbs = den → Even (halfEven num den)) := by
  have hdiv : (num : ℤ) = (num / den : ℕ) * den + (num % den : ℕ) := by
    have := Nat.div_add_mod' num den
    exact_mod_cast this.symm
  have hlt : num % den < den := Nat.mod_lt _ hden
  unfold halfEven
  simp only
  split_ifs with hup
  · refine ⟨(num % den : ℕ) - den, ?_, by omega, ?_⟩
    · rw [hdiv]
      push_cast
      ring
    · intro hhalf
      rw [Nat.even_add_one, Nat.not_even_iff]
      omega
  · refine ⟨(num % den : ℕ), hdiv, by omega, ?_⟩
    intro hhalf
    rw [Nat.even_iff]
    omega

/-- A quotient is rounded to a whole number that is nearest to it; of two equally near the even
one. -/
theorem abs_sub_halfEven (num : ℕ) {den : ℕ} (hden : 0 < den) :
    |(num : ℚ) / den - halfEven num den| ≤ 1 / 2 ∧
      (|(num : ℚ) / den - halfEven num den| = 1 / 2 → Even (halfEven num den)) := by
  obtain ⟨gap, hnum, hle, heven⟩ := halfEven_spec num hden
  have hpos : (0 : ℚ) < den := by exact_mod_cast hden
  have hgap : (num : ℚ) / den - halfEven num den = gap / den := by
    have hnum : (num : ℚ) = halfEven num den * den + gap := by exact_mod_cast hnum
    rw [hnum]
    field_simp
    ring
  have habs : |(gap : ℚ) / den| = (gap.natAbs : ℚ) / den := by
    rw [abs_div, abs_of_pos hpos, Nat.cast_natAbs, Int.cast_abs]
  rw [hgap, habs]
  constructor
  · rw [div_le_div_iff₀ hpos two_pos]
    have : ((2 * gap.natAbs : ℕ) : ℚ) ≤ den := by exact_mod_cast hle
    push_cast at this
    linarith
  · intro hhalf
    rw [div_eq_div_iff hpos.ne' two_ne_zero] at hhalf
    apply heven
    have : ((2 * gap.natAbs : ℕ) : ℚ) = den := by
      push_cast
      linarith
    exact_mod_cast this

end Number

/-- The nearest number of whole hundredths; of two equally near the one that is even. -/
def IsRounded (exact rounded : ℚ) : Prop :=
  ∃ cents : ℤ, rounded = cents / 100 ∧ |100 * exact - cents| ≤ 1 / 2 ∧
    (|100 * exact - cents| = 1 / 2 → Even cents)

theorem IsRounded.neg {exact rounded : ℚ} (h : IsRounded exact rounded) :
    IsRounded (-exact) (-rounded) := by
  obtain ⟨cents, hrounded, hle, heven⟩ := h
  have habs : |100 * -exact - ((-cents : ℤ) : ℚ)| = |100 * exact - cents| := by
    rw [← abs_neg]
    push_cast
    ring_nf
  refine ⟨-cents, ?_, ?_, ?_⟩
  · rw [hrounded]
    push_cast
    ring
  · rw [habs]
    exact hle
  · rw [habs, even_neg]
    exact heven

namespace Number.Decimal

/-! ### The number of a decimal -/

/-- The number of a decimal without its sign. -/
def magnitude (d : Decimal) : ℚ :=
  d.mantissa / 10 ^ d.places

theorem value_eq (d : Decimal) : d.value = if d.negative then -d.magnitude else d.magnitude := by
  unfold value signed magnitude
  split
  · push_cast
    ring
  · push_cast
    ring

theorem abs_value (d : Decimal) : |d.value| = d.magnitude := by
  have hnonneg : 0 ≤ d.magnitude := by
    unfold magnitude
    positivity
  rw [value_eq]
  split
  · rw [abs_neg, abs_of_nonneg hnonneg]
  · rw [abs_of_nonneg hnonneg]

theorem magnitude_mul (d : Decimal) : d.magnitude * 10 ^ d.places = d.mantissa := by
  unfold magnitude
  field_simp

theorem negative_iff {d : Decimal} (h : d.negative = true → d.mantissa ≠ 0) :
    d.negative = true ↔ d.value < 0 := by
  rw [value_eq]
  constructor
  · intro hnegative
    have hpos : (0 : ℚ) < d.mantissa := by
      exact_mod_cast Nat.pos_of_ne_zero (h hnegative)
    rw [if_pos hnegative, neg_lt_zero]
    unfold magnitude
    positivity
  · intro hlt
    by_contra hnegative
    rw [if_neg hnegative] at hlt
    have : 0 ≤ d.magnitude := by
      unfold magnitude
      positivity
    linarith

/-! ### Two places -/

theorem value_ofParts (negative : Bool) (mantissa places : ℕ)
    (hm : mantissa < 0x1000000000000000000000000) (hp : places ≤ 28) :
    (ofParts negative mantissa places hm hp).value =
      if negative then -((mantissa : ℚ) / 10 ^ places) else (mantissa : ℚ) / 10 ^ places := by
  rw [value_eq]
  unfold ofParts magnitude
  by_cases hzero : mantissa = 0
  · simp [hzero]
  · simp [hzero]

/-- **Rounding to two places gives the nearest hundredths**, with ties to even. -/
theorem isRounded_round {d : Decimal} (h : 2 < d.places) : IsRounded d.value (d.round 2).value := by
  have hvalue : (d.round 2).value =
      if d.negative then -((halfEven d.mantissa (10 ^ (d.places - 2)) : ℚ) / 10 ^ 2)
      else (halfEven d.mantissa (10 ^ (d.places - 2)) : ℚ) / 10 ^ 2 := by
    unfold round
    rw [dif_neg (by omega)]
    exact value_ofParts ..
  have hmagnitude : 100 * d.magnitude = (d.mantissa : ℚ) / ((10 ^ (d.places - 2) : ℕ) : ℚ) := by
    have hsplit : (10 : ℚ) ^ d.places = 10 ^ (d.places - 2) * 100 := by
      rw [show (100 : ℚ) = 10 ^ 2 by norm_num, ← pow_add]
      congr 1
      omega
    unfold magnitude
    rw [hsplit]
    push_cast
    field_simp
  have hrounded : IsRounded d.magnitude
      ((halfEven d.mantissa (10 ^ (d.places - 2)) : ℚ) / 10 ^ 2) := by
    obtain ⟨hle, heven⟩ := @abs_sub_halfEven d.mantissa (10 ^ (d.places - 2)) (by positivity)
    refine ⟨halfEven d.mantissa (10 ^ (d.places - 2)), ?_, ?_, ?_⟩
    · push_cast
      norm_num
    · rw [hmagnitude]
      exact hle
    · intro hhalf
      rw [hmagnitude] at hhalf
      exact_mod_cast heven hhalf
  rw [hvalue, value_eq]
  split
  · exact hrounded.neg
  · exact hrounded

/-- A decimal with more places, up to `count` of them, and all of them unless it is full. -/
structure Widened (d : Decimal) (count : ℕ) (e : Decimal) : Prop where
  negative : e.negative = d.negative
  zero_iff : e.mantissa = 0 ↔ d.mantissa = 0
  value : e.value = d.value
  least : d.places ≤ e.places
  most : e.places ≤ d.places + count
  full : e.places < d.places + count →
    0x1000000000000000000000000 ≤ e.mantissa * 10 ∨ 28 ≤ e.places

theorem value_widened {d e : Decimal} (hnegative : e.negative = d.negative)
    (hmantissa : e.mantissa = d.mantissa * 10) (hplaces : e.places = d.places + 1) :
    e.value = d.value := by
  have hmagnitude : e.magnitude = d.magnitude := by
    unfold magnitude
    rw [hmantissa, hplaces, pow_succ]
    push_cast
    field_simp
  rw [value_eq, value_eq, hnegative, hmagnitude]

/-- **Widening changes no value**, and stops early only where the mantissa has no more room. -/
theorem widened_widenBy (count : ℕ) (d : Decimal) : Widened d count (widenBy count d) := by
  induction count generalizing d with
  | zero => exact ⟨rfl, Iff.rfl, rfl, le_rfl, le_rfl, fun h => absurd h (lt_irrefl _)⟩
  | succ count ih =>
      unfold widenBy
      split
      · next hroom =>
          obtain ⟨hnegative, hzero, hvalue, hleast, hmost, hfull⟩ :=
            ih ⟨d.negative, d.mantissa * 10, d.places + 1, hroom.1, hroom.2⟩
          simp only at hnegative hzero hleast hmost hfull
          refine ⟨hnegative, ?_, ?_, by omega, by omega, fun h => hfull (by omega)⟩
          · rw [hzero]
            omega
          · rw [hvalue]
            exact value_widened rfl rfl rfl
      · next hroom =>
          refine ⟨rfl, Iff.rfl, rfl, le_rfl, by omega, fun _ => ?_⟩
          omega

theorem widened_widen (places : ℕ) (d : Decimal) :
    Widened d (places - d.places) (d.widen places) :=
  widened_widenBy _ d

/-- The decimal whose digits are written as money. -/
def money (d : Decimal) : Decimal :=
  if d.isZero then Amount.zero.toDecimal else (d.round 2).widen 2

theorem moneyText_eq (d : Decimal) : d.moneyText = d.money.text := by
  unfold moneyText money
  split
  · decide
  · rfl

theorem places_round_le (d : Decimal) : (d.round 2).places ≤ 2 := by
  unfold round
  split
  · assumption
  · exact le_rfl

/-- What is rounded to zero carries no sign. -/
theorem mantissa_round_ne_zero {d : Decimal} (h : d.mantissa ≠ 0)
    (hnegative : (d.round 2).negative = true) : (d.round 2).mantissa ≠ 0 := by
  unfold round at hnegative ⊢
  by_cases hplaces : d.places ≤ 2
  · rw [dif_pos hplaces]
    exact h
  · rw [dif_neg hplaces] at hnegative ⊢
    simp only [ofParts, Bool.and_eq_true, bne_iff_ne] at hnegative ⊢
    exact hnegative.2

/-- What is said of the decimal whose digits are written. -/
structure IsMoney (d e : Decimal) : Prop where
  rounded : 2 < d.places → IsRounded d.value e.value
  exact : d.places ≤ 2 → e.value = d.value
  places_le : e.places ≤ 2
  full : e.places < 2 → 0x1000000000000000000000000 ≤ e.mantissa * 10
  unsigned : e.negative = true → e.mantissa ≠ 0

theorem isMoney_zero {d : Decimal} (h : d.mantissa = 0) :
    IsMoney d ⟨false, 0, 2, by decide, by decide⟩ := by
  have hvalue : d.value = 0 := by simp [value_eq, magnitude, h]
  have hzero : (⟨false, 0, 2, by decide, by decide⟩ : Decimal).value = 0 := by
    simp [value_eq, magnitude]
  refine ⟨fun _ => ?_, fun _ => ?_, le_rfl, fun h => absurd h (lt_irrefl _),
    fun hnegative => absurd hnegative Bool.false_ne_true⟩
  · rw [hvalue, hzero]
    exact ⟨0, by norm_num, by norm_num, by norm_num⟩
  · rw [hvalue, hzero]

theorem isMoney_widen_round {d : Decimal} (h : d.mantissa ≠ 0) :
    IsMoney d ((d.round 2).widen 2) := by
  have hround := d.places_round_le
  have hwidened := (d.round 2).widened_widen 2
  have hmost := hwidened.most
  refine ⟨fun hmany => ?_, fun hfew => ?_, by omega, fun hshort => ?_, fun hnegative => ?_⟩
  · rw [hwidened.value]
    exact isRounded_round hmany
  · have hkept : d.round 2 = d := dif_pos hfew
    rw [hwidened.value, hkept]
  · rcases hwidened.full (by omega) with hfull | hfull
    · exact hfull
    · omega
  · rw [ne_eq, hwidened.zero_iff]
    rw [hwidened.negative] at hnegative
    exact mantissa_round_ne_zero h hnegative

theorem isMoney_money (d : Decimal) : IsMoney d d.money := by
  unfold money
  by_cases hzero : d.mantissa = 0
  · rw [if_pos (by simp [isZero, hzero])]
    exact isMoney_zero hzero
  · rw [if_neg (by simp [isZero, hzero])]
    exact isMoney_widen_round hzero

/-! ### The text -/

def numeral (d : Decimal) : Numeral where
  negative := d.negative
  whole := frontDigits d.places d.mantissa
  places := lastDigits d.places d.mantissa
  whole_digits := allDigits_frontDigits _ _
  whole_ne_nil := frontDigits_ne_nil _ _
  places_digits := allDigits_lastDigits _ _

theorem toList_text (d : Decimal) : d.text.toList = d.numeral.text := by
  have hmagnitude : d.magnitudeText =
      d.numeral.whole ++ Numeral.fraction d.numeral.places := by
    have hnil : d.numeral.places = [] ↔ d.places = 0 := by
      rw [← List.length_eq_zero_iff]
      exact Eq.congr_left (length_lastDigits _ _)
    unfold magnitudeText Numeral.fraction
    by_cases hzero : d.places = 0
    · rw [if_pos (hnil.mpr hzero), List.append_nil]
      exact if_pos hzero
    · rw [if_neg (mt hnil.mp hzero)]
      exact if_neg hzero
  unfold text Numeral.text
  rw [String.toList_ofList, hmagnitude]
  show _ = (if d.negative then ['-'] else []) ++ _
  split <;> rfl

theorem value_numeral (d : Decimal) : d.numeral.value = d.value := by
  have hmagnitude : fixedPoint d.numeral.whole d.numeral.places = d.magnitude := by
    have hread := readDigits_frontDigits d.places d.mantissa
    have hread : (d.mantissa : ℚ) = readDigits d.numeral.whole * 10 ^ d.places +
        readDigits d.numeral.places := by exact_mod_cast hread.symm
    have hlength : d.numeral.places.length = d.places := length_lastDigits _ _
    unfold fixedPoint magnitude
    rw [hread, hlength]
    field_simp
  unfold Numeral.value
  rw [hmagnitude, value_eq]
  rfl

end Number.Decimal

/-- What is asked of a decimal written as money. -/
structure ShowsMoney (d : Decimal) (numeral : Numeral) : Prop where
  /-- More than two places are rounded to two, with ties to even. -/
  rounded : 2 < d.places → IsRounded d.value numeral.value
  exact : d.places ≤ 2 → numeral.value = d.value
  /-- Two places are shown where a mantissa holds the hundredths. -/
  twoPlaces : |numeral.value| * 100 ≤ 2 ^ 96 - 1 → numeral.places.length = 2
  /-- One place or none are shown elsewhere: as many as a mantissa holds. -/
  fewerPlaces : 2 ^ 96 - 1 < |numeral.value| * 100 →
    numeral.places.length = if |numeral.value| * 10 ≤ 2 ^ 96 - 1 then 1 else 0
  noZero : numeral.whole.head? = some '0' → numeral.whole = ['0']
  sign : numeral.negative = true ↔ numeral.value < 0

theorem Number.Decimal.IsMoney.showsMoney {d e : Decimal} (h : IsMoney d e) :
    ShowsMoney d e.numeral := by
  have hvalue : |e.numeral.value| = e.magnitude := by rw [e.value_numeral, e.abs_value]
  have hlength : e.numeral.places.length = e.places := length_lastDigits _ _
  have hmul := e.magnitude_mul
  have hroom : (e.mantissa : ℚ) ≤ 2 ^ 96 - 1 := by
    have hlt : e.mantissa ≤ 2 ^ 96 - 1 := by
      have := e.mantissa_lt
      omega
    have : ((2 ^ 96 - 1 : ℕ) : ℚ) = 2 ^ 96 - 1 := by norm_num
    rw [← this]
    exact_mod_cast hlt
  have hfull : e.places < 2 → (2 : ℚ) ^ 96 ≤ e.mantissa * 10 := by
    intro hfew
    have hle : 2 ^ 96 ≤ e.mantissa * 10 := h.full hfew
    exact_mod_cast hle
  have hle := h.places_le
  refine ⟨fun hd => ?_, fun hd => ?_, fun hsmall => ?_, fun hgreat => ?_,
    frontDigits_of_zero _ _, ?_⟩
  · rw [e.value_numeral]
    exact h.rounded hd
  · rw [e.value_numeral]
    exact h.exact hd
  · rw [hvalue] at hsmall
    rw [hlength]
    by_contra hne
    have := hfull (by omega)
    interval_cases hplaces : e.places
    · rw [pow_zero, mul_one] at hmul
      linarith
    · rw [pow_one] at hmul
      linarith
    · exact hne rfl
  · rw [hvalue] at hgreat ⊢
    rw [hlength]
    interval_cases hplaces : e.places
    · have := hfull (by omega)
      rw [pow_zero, mul_one] at hmul
      rw [if_neg (by linarith)]
    · rw [pow_one] at hmul
      rw [if_pos (by linarith)]
    · norm_num at hmul
      linarith
  · rw [e.value_numeral]
    exact Decimal.negative_iff h.unsigned

/-- **A decimal as money.**  Whatever its sign, its mantissa and its places are, the text is that of
one numeral only: of the same number if it has two places at most, and else of the nearest
hundredths, with two places as long as a mantissa holds them, no superfluous zero, and a minus sign
exactly if the number shown is negative. -/
theorem Number.Decimal.showsMoney_moneyText (d : Decimal) :
    ∃ numeral : Numeral, (∀ other : Numeral, d.moneyText.toList = other.text ↔ other = numeral) ∧
      ShowsMoney d numeral ∧ d.moneyText ≠ "-0.00" := by
  have htext : d.moneyText.toList = d.money.numeral.text := by
    rw [moneyText_eq, toList_text]
  have hshows := d.isMoney_money.showsMoney
  refine ⟨d.money.numeral, fun other => ?_, hshows, fun hzero => ?_⟩
  · rw [htext, eq_comm]
    exact Numeral.text_injective.eq_iff
  · let minusZero : Numeral := ⟨true, ['0'], ['0', '0'], by decide, by decide, by decide⟩
    have hnumeral : minusZero = d.money.numeral := by
      apply Numeral.text_injective
      rw [← htext, hzero]
      decide
    have hnegative : minusZero.value < 0 := by
      rw [hnumeral, ← hshows.sign, ← hnumeral]
    have hvalue : minusZero.value = 0 := by
      norm_num [minusZero, Numeral.value, fixedPoint, readDigits, digitValue]
    linarith

end Posting
