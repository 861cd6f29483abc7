import Mathlib.Tactic
import Posting.Amount
import Posting.Proofs.Digits
import Posting.Proofs.TextPieces

/-! # Amounts as texts

A row shows an amount as whole units, a point and two places (`Amount.toList_exportText`).
`Text.value?` reads such a text as a number, with any count of places and without regard to how it
was written; what it reads from the text of an amount is the opposite of its minor units, divided by
100 (`Amount.value?_exportText`). -/

namespace Posting

open Number

namespace Text

/-! ### The number that a text denotes -/

/-- The number of whole units and of places behind the point. -/
def fixedPoint (whole places : List Char) : ℚ :=
  readDigits whole + readDigits places / 10 ^ places.length

/-- The number that digits with a point among them denote. -/
def unsignedValue? (cs : List Char) : Option ℚ :=
  match split '.' cs with
  | [whole, places] =>
    if whole ≠ [] ∧ places ≠ [] ∧ (whole ++ places).all Char.isDigit then
      some (fixedPoint whole places)
    else none
  | _ => none

/-- The number that digits with a point among them denote, with or without a minus sign. -/
def value? : List Char → Option ℚ
  | '-' :: rest => (unsignedValue? rest).map (fun x => -x)
  | cs => unsignedValue? cs

theorem unsignedValue?_point {whole places : List Char} (hwhole : AllDigits whole)
    (hplaces : AllDigits places) (hwhole_ne : whole ≠ []) (hplaces_ne : places ≠ []) :
    unsignedValue? (whole ++ '.' :: places) = some (fixedPoint whole places) := by
  have hsplit : split '.' (whole ++ '.' :: places) = [whole, places] := by
    rw [split_eq_splitOn, List.splitOn_append_cons_self_of_not_mem (hwhole.not_mem (by decide)),
      List.splitOn_eq_singleton (hplaces.not_mem (by decide))]
  have hall : (whole ++ places).all Char.isDigit = true :=
    List.all_eq_true.mpr (hwhole.append hplaces)
  rw [unsignedValue?, hsplit]
  simp only
  rw [if_pos ⟨hwhole_ne, hplaces_ne, hall⟩]

theorem value?_neg (cs : List Char) :
    value? ('-' :: cs) = (unsignedValue? cs).map (fun x => -x) :=
  rfl

theorem value?_digit {c : Char} (h : c.isDigit = true) (rest : List Char) :
    value? (c :: rest) = unsignedValue? (c :: rest) := by
  unfold value?
  split
  · rename_i heq
    rw [List.cons.injEq] at heq
    exact absurd heq.1 (ne_of_isDigit h rfl)
  · rfl

end Text

/-! ### Two places -/

open Text

/-- The digits of so many minor units before the point. -/
def wholeDigits (n : Nat) : List Char :=
  (padded 3 n).take ((padded 3 n).length - 2)

/-- The two digits of so many minor units behind the point. -/
def placeDigits (n : Nat) : List Char :=
  (padded 3 n).drop ((padded 3 n).length - 2)

theorem allDigits_wholeDigits (n : Nat) : AllDigits (wholeDigits n) :=
  allDigits_frontDigits 2 n

theorem allDigits_placeDigits (n : Nat) : AllDigits (placeDigits n) :=
  allDigits_lastDigits 2 n

theorem wholeDigits_ne_nil (n : Nat) : wholeDigits n ≠ [] :=
  frontDigits_ne_nil 2 n

theorem length_placeDigits (n : Nat) : (placeDigits n).length = 2 :=
  length_lastDigits 2 n

theorem readDigits_wholeDigits (n : Nat) :
    readDigits (wholeDigits n) * 100 + readDigits (placeDigits n) = n :=
  readDigits_frontDigits 2 n

theorem unsignedValue?_places (n : Nat) :
    unsignedValue? (wholeDigits n ++ '.' :: placeDigits n) = some ((n : ℚ) / 100) := by
  have hne : placeDigits n ≠ [] := by
    rw [← List.length_pos_iff, length_placeDigits]
    decide
  have hn : (n : ℚ) = readDigits (wholeDigits n) * 100 + readDigits (placeDigits n) := by
    exact_mod_cast (readDigits_wholeDigits n).symm
  rw [unsignedValue?_point (allDigits_wholeDigits n) (allDigits_placeDigits n)
    (wholeDigits_ne_nil n) hne, fixedPoint, length_placeDigits, hn]
  congr 1
  ring

/-! ### Amounts -/

namespace Amount

/-- **An amount as a row shows it**: a minus sign if it is above zero, the whole units, a point and
two places. -/
theorem toList_exportText (a : Amount) :
    a.exportText.toList =
      (if 0 < a.minor then ['-'] else []) ++
        (wholeDigits a.minor.natAbs ++ '.' :: placeDigits a.minor.natAbs) := by
  have hmoney : a.exportText = if a.minor.natAbs == 0 then "0.00" else a.negated.text := rfl
  have htext : a.negated.text.toList =
      if a.negated.negative then '-' :: (wholeDigits a.minor.natAbs ++ '.' :: placeDigits _)
      else wholeDigits a.minor.natAbs ++ '.' :: placeDigits _ :=
    String.toList_ofList
  have hsign : a.negated.negative = !(decide (a.minor < 0) && a.minor.natAbs != 0) := rfl
  by_cases hzero : a.minor = 0
  · rw [hmoney, hzero, if_pos (by decide), if_neg (by decide)]
    decide
  · have hne : (a.minor.natAbs == 0) = false := by
      rw [beq_eq_false_iff_ne]
      omega
    rw [hmoney, hne, if_neg (by decide), htext, hsign, bne, hne]
    by_cases hpos : 0 < a.minor
    · rw [decide_eq_false (by omega), if_pos hpos]
      rfl
    · rw [decide_eq_true (by omega), if_neg hpos]
      rfl

/-- **The text of an amount denotes its opposite in major units**, exactly. -/
theorem value?_exportText (a : Amount) :
    value? a.exportText.toList = some (-(a.minor : ℚ) / 100) := by
  rw [toList_exportText]
  by_cases hpos : 0 < a.minor
  · have habs : (a.minor.natAbs : ℚ) = a.minor := by
      rw [← Int.cast_natCast, Int.natAbs_of_nonneg hpos.le]
    rw [if_pos hpos, List.singleton_append, value?_neg, unsignedValue?_places, habs,
      Option.map_some, neg_div]
  · have habs : (a.minor.natAbs : ℚ) = -a.minor := by
      rw [← Int.cast_natCast, Int.ofNat_natAbs_of_nonpos (not_lt.mp hpos), Int.cast_neg]
    obtain ⟨c, tail, hc, heq⟩ :=
      (allDigits_wholeDigits a.minor.natAbs).exists_cons (wholeDigits_ne_nil _)
    have hvalue := unsignedValue?_places a.minor.natAbs
    rw [heq, List.cons_append] at hvalue
    rw [if_neg hpos, List.nil_append, heq, List.cons_append, value?_digit hc, hvalue, habs]

end Amount

end Posting
