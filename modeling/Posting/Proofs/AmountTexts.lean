import Posting.Proofs.DecimalTexts

/-! # Amounts to the last hundredth

Whatever 64-bit word an amount is, its texts show every hundredth of it, and no other amount has
the same ones.

* `ShowsHundredths` says what a text of so many hundredths looks like, without regard to decimals.
  There is one such text only, `hundredthsText` (`showsHundredths_iff`).
* `Decimal.ofInt?` is the decimal of a whole number at so many places if a mantissa holds it.  A
  mantissa holds every amount and every opposite of one, and a decimal with two places stays as it
  is when it is written as money (`Decimal.showsHundredths_moneyText`).
* The exported text shows the opposite of the minor units, and the displayed text shows them as
  they are.

`Amount.texts_exact` puts these together. -/

namespace Posting

open Number Text

/-! ### Texts of hundredths -/

/-- A text of so many hundredths: a minus sign if they are fewer than none, the whole units without
superfluous zeros, a point, and two digits for the rest. -/
def ShowsHundredths (n : ℤ) (text : List Char) : Prop :=
  ∃ whole places, text = (if n < 0 then ['-'] else []) ++ (whole ++ '.' :: places) ∧
    (AllDigits whole ∧ whole ≠ [] ∧ (whole.head? = some '0' → whole = ['0']) ∧
      readDigits whole = n.natAbs / 100) ∧
    AllDigits places ∧ places.length = 2 ∧ readDigits places = n.natAbs % 100

/-- The text of so many hundredths. -/
def hundredthsText (n : ℤ) : List Char :=
  (if n < 0 then ['-'] else []) ++ (digits (n.natAbs / 100) ++ '.' :: padded 2 (n.natAbs % 100))

/-- **There is one text of so many hundredths**, and no other. -/
theorem showsHundredths_iff (n : ℤ) (text : List Char) :
    ShowsHundredths n text ↔ text = hundredthsText n := by
  constructor
  · rintro ⟨whole, places, rfl, ⟨hwhole, hne, hzero, hunits⟩, hplaces, hlength, hrest⟩
    have hplaces_ne : places ≠ [] := by
      rw [← List.length_pos_iff, hlength]
      decide
    have hdigits := digits_readDigits hwhole hne hzero
    have hpadded := padded_readDigits hplaces hplaces_ne
    rw [hunits] at hdigits
    rw [hlength, hrest] at hpadded
    rw [hundredthsText, hdigits, hpadded]
  · rintro rfl
    refine ⟨_, _, rfl, ⟨allDigits_digits _, digits_ne_nil _, fun hhead => ?_, readDigits_digits _⟩,
      allDigits_padded _ _, length_padded (by decide) (Nat.mod_lt _ (by decide)),
      readDigits_padded _ _⟩
    rcases Nat.eq_zero_or_pos (n.natAbs / 100) with hzero | hpos
    · rw [hzero]
      rfl
    · exact absurd hhead (head?_digits _ hpos)

/-! ### Decimals of hundredths -/

namespace Number.Decimal

/-- The decimal of a whole number at so many places, if a mantissa holds it. -/
def ofInt? (n : ℤ) (places : ℕ) : Option Decimal :=
  if h : n.natAbs < 0x1000000000000000000000000 ∧ places ≤ 28 then
    some (ofParts (decide (n < 0)) n.natAbs places h.1 h.2)
  else none

theorem signed_ofParts (n : ℤ) (places : ℕ) (hm : n.natAbs < 0x1000000000000000000000000)
    (hp : places ≤ 28) : (ofParts (decide (n < 0)) n.natAbs places hm hp).signed = n := by
  show (if decide (n < 0) && n.natAbs != 0 then -(n.natAbs : ℤ) else n.natAbs) = n
  by_cases hneg : n < 0
  · have hne : n.natAbs ≠ 0 := by omega
    rw [if_pos (by simp [hneg, hne])]
    omega
  · rw [if_neg (by simp [hneg])]
    omega

theorem signed_neg (d : Decimal) : d.neg.signed = -d.signed := by
  unfold signed neg
  cases d.negative
  · rfl
  · exact (neg_neg _).symm

theorem widen_round_of_places {d : Decimal} (h : d.places = 2) : (d.round 2).widen 2 = d := by
  have hround : d.round 2 = d := dif_pos h.le
  rw [hround, widen, h]
  rfl

theorem showsHundredths_moneyText {d : Decimal} (h : d.places = 2) :
    ShowsHundredths d.signed d.moneyText.toList := by
  by_cases hzero : d.mantissa = 0
  · have hsigned : d.signed = 0 := by
      unfold signed
      split <;> omega
    have hmoney : d.moneyText = "0.00" := if_pos (by rw [isZero, hzero]; rfl)
    rw [hsigned, hmoney, showsHundredths_iff]
    decide
  · have hmoney : d.moneyText.toList = d.numeral.text := by
      rw [moneyText, if_neg (by simpa [isZero] using hzero), widen_round_of_places h, toList_text]
    have hsign : d.signed < 0 ↔ d.negative = true := by
      unfold signed
      cases d.negative with
      | false => simp
      | true =>
          simp only [if_true, iff_true]
          omega
    have habs : d.signed.natAbs = d.mantissa := by
      unfold signed
      split <;> omega
    have hlength : (lastDigits 2 d.mantissa).length = 2 := length_lastDigits 2 _
    have hread := readDigits_frontDigits 2 d.mantissa
    have hlt := readDigits_lt (allDigits_lastDigits 2 d.mantissa)
    rw [hlength] at hlt
    refine ⟨frontDigits 2 d.mantissa, lastDigits 2 d.mantissa, ?_,
      ⟨allDigits_frontDigits _ _, frontDigits_ne_nil _ _, frontDigits_of_zero _ _, ?_⟩,
      allDigits_lastDigits _ _, hlength, ?_⟩
    · have hne : lastDigits 2 d.mantissa ≠ [] := by
        rw [← List.length_pos_iff, hlength]
        decide
      rw [hmoney, Numeral.text, numeral]
      simp only [h, Numeral.fraction, if_neg hne, hsign]
    · rw [habs]
      omega
    · rw [habs]
      omega

end Number.Decimal

/-! ### Amounts -/

namespace Amount

theorem signed_toDecimal (a : Amount) : a.toDecimal.signed = a.minor :=
  Decimal.signed_ofParts a.minor 2 a.natAbs_lt (by decide)

theorem signed_negated (a : Amount) : a.negated.signed = -a.minor := by
  rw [negated, Decimal.signed_neg, signed_toDecimal]

theorem ofInt?_minor (a : Amount) : Decimal.ofInt? a.minor 2 = some a.toDecimal :=
  dif_pos ⟨a.natAbs_lt, by decide⟩

theorem showsHundredths_exportText (a : Amount) :
    ShowsHundredths (-a.minor) a.exportText.toList := by
  rw [← signed_negated]
  exact Decimal.showsHundredths_moneyText rfl

theorem showsHundredths_displayText (a : Amount) :
    ShowsHundredths a.minor a.displayText.toList := by
  rw [← signed_toDecimal]
  exact Decimal.showsHundredths_moneyText rfl

theorem displayText_eq_exportText {a b : Amount} (h : b.minor = -a.minor) :
    a.displayText = b.exportText := by
  have ha := (showsHundredths_iff _ _).mp a.showsHundredths_displayText
  have hb := (showsHundredths_iff _ _).mp b.showsHundredths_exportText
  rw [h, neg_neg] at hb
  rw [← String.toList_inj, ha, hb]

theorem minor_injective : Function.Injective minor := by
  rintro ⟨m, _, _⟩ ⟨n, _, _⟩ h
  cases h
  rfl

theorem exportText_injective : Function.Injective exportText := by
  intro a b h
  have hvalue := congrArg (fun text => value? text.toList) h
  simp only [value?_exportText, Option.some.injEq] at hvalue
  have hminor : (a.minor : ℚ) = b.minor := by linarith
  exact minor_injective (by exact_mod_cast hminor)

/-- **Amounts are written to the last hundredth**, whatever 64-bit word they are.  A mantissa holds
the minor units and their opposite, and nothing is rounded.  The exported text is the one that shows
the opposite of the minor units; read back it is that many hundredths, so that different amounts
have different texts.  The displayed text shows the minor units themselves, which is what
the opposite amount is exported as if a word holds it. -/
theorem texts_exact (a : Amount) :
    (∀ text : String, ShowsHundredths (-a.minor) text.toList ↔ text = a.exportText) ∧
      ((value? a.exportText.toList).map (fun x => x * 100) = some (-(a.minor : ℚ)) ∧
        ∀ b : Amount, b.exportText = a.exportText ↔ b = a) ∧
      (Decimal.ofInt? a.minor 2 = some a.toDecimal ∧ a.toDecimal.value = a.minor / 100 ∧
        a.negated.value = -a.minor / 100 ∧ (a.negated.round 2).widen 2 = a.negated ∧
        (a.toDecimal.round 2).widen 2 = a.toDecimal) ∧
      (∀ text : String, ShowsHundredths a.minor text.toList ↔ text = a.displayText) ∧
      (a.minor ≠ -(2 ^ 63) → ∃ b : Amount, b.minor = -a.minor ∧ a.displayText = b.exportText) ∧
      zero.displayText = "0.00" ∧ zero.exportText = "0.00" := by
  have hexport (text : String) : ShowsHundredths (-a.minor) text.toList ↔ text = a.exportText := by
    rw [← String.toList_inj, showsHundredths_iff,
      (showsHundredths_iff _ _).mp a.showsHundredths_exportText]
  have hdisplay (text : String) : ShowsHundredths a.minor text.toList ↔ text = a.displayText := by
    rw [← String.toList_inj, showsHundredths_iff,
      (showsHundredths_iff _ _).mp a.showsHundredths_displayText]
  refine ⟨hexport, ⟨?_, fun b => exportText_injective.eq_iff⟩,
    ⟨a.ofInt?_minor, ?_, ?_, Decimal.widen_round_of_places rfl,
      Decimal.widen_round_of_places rfl⟩, hdisplay, fun hleast => ?_, by decide, by decide⟩
  · rw [value?_exportText, Option.map_some, div_mul_cancel₀ _ (by norm_num)]
  · rw [Decimal.value, signed_toDecimal]
    norm_num [toDecimal, Decimal.ofParts]
  · rw [Decimal.value, signed_negated]
    norm_num [negated, Decimal.neg, toDecimal, Decimal.ofParts]
  · have hlower := a.lower
    have hupper := a.upper
    let b : Amount := ⟨-a.minor, by omega, by omega⟩
    exact ⟨b, rfl, displayText_eq_exportText rfl⟩

/-- The least amount has no opposite, but a text; the least but one is displayed as the greatest is
exported. -/
theorem texts_exact_of_least :
    let least : Amount := ⟨-(2 ^ 63), by decide, by decide⟩
    let next : Amount := ⟨-(2 ^ 63) + 1, by decide, by decide⟩
    least.exportText = "92233720368547758.08" ∧ next.minor ≠ -(2 ^ 63) ∧
      ∃ b : Amount, b.minor = 2 ^ 63 - 1 ∧ next.displayText = b.exportText := by
  intro least next
  have hleast : ShowsHundredths (2 ^ 63) "92233720368547758.08".toList := by
    rw [showsHundredths_iff]
    decide
  have hnext : next.minor ≠ -(2 ^ 63) := by decide
  exact ⟨((texts_exact least).1 _).mp hleast |>.symm, hnext, (texts_exact next).2.2.2.2.1 hnext⟩

end Amount

end Posting
