import Mathlib.Tactic
import Mathlib.Algebra.BigOperators.Group.List.Basic
import Posting.Amount

/-! # Sums of amounts

`Decimal.sum?` adds amounts one by one to a zero without places.  As long as fewer than `2 ^ 33`
amounts are added, no sum on the way passes the 96 bits of a mantissa, so none of them gives up a
place: each is so many hundredths exactly (`Decimal.IsCents`).

* `Decimal.add?_isCents` is one step, `Decimal.foldlM_isCents` all of them.
* `Amount.sum?_negated` says what the sum of a list of amounts is, each of them other than zero.
* `Amount.sum?_negated_perm` says that their order does not matter. -/

namespace Posting

open Number

namespace Number.Decimal

/-! ### Hundredths -/

/-- The number that a decimal stands for. -/
def value (d : Decimal) : ℚ :=
  d.signed / 10 ^ d.places

/-- A decimal of so many hundredths, with two places. -/
structure IsCents (d : Decimal) (cents : ℤ) : Prop where
  negative : d.negative = decide (cents < 0)
  mantissa : d.mantissa = cents.natAbs
  places : d.places = 2

variable {a b d e : Decimal} {s t : ℤ}

theorem IsCents.signed (h : d.IsCents s) : d.signed = s := by
  rw [Decimal.signed, h.negative, h.mantissa]
  by_cases hs : s < 0
  · rw [if_pos (decide_eq_true hs)]
    omega
  · rw [if_neg (by simpa using hs)]
    omega

theorem IsCents.value (h : d.IsCents s) : d.value = (s : ℚ) / 100 := by
  rw [Decimal.value, h.signed, h.places]
  norm_num

theorem IsCents.isZero (h : d.IsCents s) : d.isZero = decide (s = 0) := by
  rw [Decimal.isZero, h.mantissa, Bool.eq_iff_iff, beq_iff_eq, decide_eq_true_eq]
  exact Int.natAbs_eq_zero

theorem IsCents.unique (hd : d.IsCents s) (he : e.IsCents s) : d = e := by
  obtain ⟨negative, mantissa, places, hm, hp⟩ := d
  obtain ⟨negative', mantissa', places', hm', hp'⟩ := e
  obtain ⟨h1, h2, h3⟩ := hd
  obtain ⟨h1', h2', h3'⟩ := he
  simp only at h1 h2 h3 h1' h2' h3'
  subst h1 h2 h3 h1' h2' h3'
  rfl

/-- An amount other than zero is shown as its opposite in hundredths. -/
theorem isCents_negated {x : Amount} (h : x.minor ≠ 0) : x.negated.IsCents (-x.minor) := by
  refine ⟨?_, (Int.natAbs_neg x.minor).symm, rfl⟩
  have hsign : x.negated.negative = !(decide (x.minor < 0) && x.minor.natAbs != 0) := rfl
  rw [hsign, bne_iff_ne.mpr (by omega), Bool.and_true, ← decide_not, decide_eq_decide]
  omega

/-! ### One step -/

/-- What fits a mantissa is kept with all its places. -/
theorem fit?_isCents {s : ℤ} (h : s.natAbs < 0x1000000000000000000000000) :
    ∃ d, fit? (decide (s < 0)) s.natAbs 2 2 = some d ∧ d.IsCents s := by
  have hround : halfEven s.natAbs (Nat.pow 10 (2 - 2)) = s.natAbs := halfEven_one _
  refine ⟨ofParts (decide (s < 0)) s.natAbs 2 h (by decide), ?_, ?_, rfl, rfl⟩
  · rw [fit?, keep?]
    simp only [hround]
    rw [dif_pos ⟨h, by decide⟩]
  · rw [ofParts]
    by_cases hs : s < 0
    · have hne : s.natAbs ≠ 0 := by omega
      simp [hs, hne]
    · simp [hs]

theorem add?_isCents (ha : a.IsCents s) (hb : b.IsCents t) (ht : t ≠ 0)
    (h : (s + t).natAbs < 0x1000000000000000000000000) :
    ∃ d, a.add? b = some d ∧ d.IsCents (s + t) := by
  have hbzero : b.isZero = false := by
    rw [hb.isZero]
    exact decide_eq_false ht
  by_cases hs : s = 0
  · refine ⟨b, ?_, ?_⟩
    · rw [add?, ha.isZero, if_pos (decide_eq_true hs)]
    · rw [hs, zero_add]
      exact hb
  · obtain ⟨d, hd, hcents⟩ := fit?_isCents h
    refine ⟨d, ?_, hcents⟩
    rw [add?, ha.isZero, if_neg (by simpa using hs), hbzero, if_neg (by decide)]
    have hscale : ((Nat.pow 10 (2 - 2) : ℕ) : ℤ) = 1 := rfl
    simp only [ha.places, hb.places, ha.signed, hb.signed, max_self, hscale, mul_one]
    exact hd

/-- **Amounts are added exactly one after the other**, to a sum that leaves room for all of them. -/
theorem foldlM_isCents {amounts : List Amount} (hne : ∀ x ∈ amounts, x.minor ≠ 0)
    (ha : a.IsCents s)
    (hroom : s.natAbs + amounts.length * 0x8000000000000000 < 0x1000000000000000000000000) :
    ∃ d, (amounts.map Amount.negated).foldlM add? a = some d ∧
      d.IsCents (s - (amounts.map Amount.minor).sum) := by
  induction amounts generalizing a s with
  | nil =>
      refine ⟨a, rfl, ?_⟩
      rw [List.map_nil, List.sum_nil, sub_zero]
      exact ha
  | cons x rest ih =>
      rw [List.length_cons] at hroom
      have hlow := x.lower
      have hhigh := x.upper
      have hx : x.minor ≠ 0 := hne x List.mem_cons_self
      obtain ⟨b, hb, hcents⟩ := add?_isCents ha (isCents_negated hx) (neg_ne_zero.mpr hx)
        (by omega)
      obtain ⟨d, hd, hsum⟩ := ih (fun y hy => hne y (List.mem_cons_of_mem x hy)) hcents (by omega)
      refine ⟨d, ?_, ?_⟩
      · rw [List.map_cons, List.foldlM_cons, hb]
        exact hd
      · rw [List.map_cons, List.sum_cons, sub_add_eq_sub_sub]
        exact hsum

end Number.Decimal

/-! ### Lists of amounts -/

namespace Amount

/-- What a list of amounts comes to, seen from the ledger's side, in minor units. -/
def ledgerTotal (amounts : List Amount) : ℤ :=
  -(amounts.map minor).sum

theorem ledgerTotal_div (amounts : List Amount) :
    (ledgerTotal amounts : ℚ) / 100 = (amounts.map (fun a => -(a.minor : ℚ) / 100)).sum := by
  induction amounts with
  | nil => norm_num [ledgerTotal]
  | cons a rest ih =>
      rw [List.map_cons, List.sum_cons, ← ih, ledgerTotal, ledgerTotal, List.map_cons,
        List.sum_cons]
      push_cast
      ring

/-- **The sum of fewer than `2 ^ 33` amounts is exact**; without any amounts it has no places. -/
theorem sum?_negated {amounts : List Amount} (hne : ∀ x ∈ amounts, x.minor ≠ 0)
    (hlength : amounts.length < 0x200000000) :
    ∃ d, Decimal.sum? (amounts.map negated) = some d ∧
      ((amounts = [] ∧ d = .zero) ∨ (amounts ≠ [] ∧ d.IsCents (ledgerTotal amounts))) := by
  cases amounts with
  | nil => exact ⟨.zero, rfl, Or.inl ⟨rfl, rfl⟩⟩
  | cons x rest =>
      rw [List.length_cons] at hlength
      have hlow := x.lower
      have hhigh := x.upper
      have hx := Decimal.isCents_negated (hne x List.mem_cons_self)
      obtain ⟨d, hd, hcents⟩ := Decimal.foldlM_isCents
        (fun y hy => hne y (List.mem_cons_of_mem x hy)) hx (by omega)
      refine ⟨d, hd, Or.inr ⟨List.cons_ne_nil _ _, ?_⟩⟩
      rw [ledgerTotal, List.map_cons, List.sum_cons, neg_add]
      exact hcents

theorem value_sum?_negated {amounts : List Amount} (hne : ∀ x ∈ amounts, x.minor ≠ 0)
    (hlength : amounts.length < 0x200000000) :
    ∃ d, Decimal.sum? (amounts.map negated) = some d ∧
      d.value = (ledgerTotal amounts : ℚ) / 100 := by
  obtain ⟨d, hd, ⟨rfl, rfl⟩ | ⟨-, hcents⟩⟩ := sum?_negated hne hlength
  · refine ⟨.zero, hd, ?_⟩
    norm_num [Decimal.value, Decimal.signed, Decimal.zero, ledgerTotal]
  · exact ⟨d, hd, hcents.value⟩

theorem ledgerTotal_perm {front back : List Amount} (h : front.Perm back) :
    ledgerTotal front = ledgerTotal back := by
  rw [ledgerTotal, (h.map minor).sum_eq, ledgerTotal]

theorem sum?_negated_perm {front back : List Amount} (hne : ∀ x ∈ front, x.minor ≠ 0)
    (hlength : front.length < 0x200000000) (h : front.Perm back) :
    Decimal.sum? (front.map negated) = Decimal.sum? (back.map negated) := by
  obtain ⟨d, hd, hfront⟩ := sum?_negated hne hlength
  obtain ⟨e, he, hback⟩ :=
    sum?_negated (fun x hx => hne x (h.mem_iff.mpr hx)) (h.length_eq ▸ hlength)
  rw [hd, he, Option.some.injEq]
  rcases hfront with ⟨rfl, rfl⟩ | ⟨hfront, hd⟩
  · rcases hback with ⟨-, rfl⟩ | ⟨hback, -⟩
    · rfl
    · exact absurd h.nil_eq.symm hback
  · rcases hback with ⟨rfl, -⟩ | ⟨-, he⟩
    · exact absurd h.eq_nil hfront
    · exact hd.unique (ledgerTotal_perm h ▸ he)

end Amount

end Posting
