import Mathlib.Tactic.Ring
import Posting.Text.Digits

/-! # Digits read back

What `digits` and `padded` write is a run of decimal digits, and `readDigits` gives its number back.
A number has no zero in front unless it is zero itself, and a padded number that fits its width has
exactly that width.

Runs of digits of one length are told apart and sorted by their numbers (`eq_of_readDigits_eq`,
`lt_iff_readDigits_lt`), and one without superfluous zeros is what is written for its number
(`digits_readDigits`).

`frontDigits` and `lastDigits` are the digits of a number before and behind a point. -/

namespace Posting.Text

/-! ### Runs of digits -/

/-- The characters of a run of digits. -/
def AllDigits (cs : List Char) : Prop :=
  ∀ c ∈ cs, c.isDigit = true

instance (cs : List Char) : Decidable (AllDigits cs) :=
  List.decidableBAll _ cs

theorem AllDigits.append {front back : List Char} (hfront : AllDigits front)
    (hback : AllDigits back) : AllDigits (front ++ back) :=
  List.forall_mem_append.mpr ⟨hfront, hback⟩

theorem AllDigits.tail {c : Char} {cs : List Char} (h : AllDigits (c :: cs)) : AllDigits cs :=
  fun d hd => h d (List.mem_cons_of_mem c hd)

theorem AllDigits.take {cs : List Char} (h : AllDigits cs) (count : Nat) :
    AllDigits (cs.take count) :=
  fun c hc => h c (List.mem_of_mem_take hc)

theorem AllDigits.drop {cs : List Char} (h : AllDigits cs) (count : Nat) :
    AllDigits (cs.drop count) :=
  fun c hc => h c (List.mem_of_mem_drop hc)

theorem AllDigits.exists_cons {cs : List Char} (h : AllDigits cs) (hne : cs ≠ []) :
    ∃ c tail, c.isDigit = true ∧ cs = c :: tail := by
  obtain ⟨c, tail, rfl⟩ := List.exists_cons_of_ne_nil hne
  exact ⟨c, tail, h c List.mem_cons_self, rfl⟩

theorem ne_of_isDigit {c d : Char} (h : c.isDigit = true) (hd : d.isDigit = false) : c ≠ d := by
  rintro rfl
  rw [h] at hd
  cases hd

theorem AllDigits.not_mem {cs : List Char} (h : AllDigits cs) {d : Char}
    (hd : d.isDigit = false) : d ∉ cs :=
  fun hmem => ne_of_isDigit (h d hmem) hd rfl

theorem takeWhile_digits {cs rest : List Char} (h : AllDigits cs)
    (hrest : ∀ c ∈ rest.head?, c.isDigit = false) :
    (cs ++ rest).takeWhile Char.isDigit = cs := by
  rw [List.takeWhile_append_of_pos h]
  cases rest with
  | nil => simp
  | cons c tail => simp [hrest c rfl]

theorem dropWhile_digits {cs rest : List Char} (h : AllDigits cs)
    (hrest : ∀ c ∈ rest.head?, c.isDigit = false) : (cs ++ rest).dropWhile Char.isDigit = rest := by
  have hwhole := (cs ++ rest).takeWhile_append_dropWhile (p := Char.isDigit)
  rw [takeWhile_digits h hrest] at hwhole
  exact List.append_cancel_left hwhole

theorem allDigits_takeWhile (cs : List Char) : AllDigits (cs.takeWhile Char.isDigit) :=
  List.all_eq_true.mp List.all_takeWhile

/-! ### The number of a run -/

theorem readDigits_eq (cs : List Char) : readDigits cs = Nat.ofDigitChars 10 cs 0 := by
  unfold readDigits Nat.ofDigitChars digitValue
  simp only [Nat.mul_comm]

theorem readDigits_append (front back : List Char) :
    readDigits (front ++ back) = readDigits front * 10 ^ back.length + readDigits back := by
  rw [readDigits_eq, readDigits_eq, readDigits_eq, Nat.ofDigitChars_append,
    Nat.ofDigitChars_eq_ofDigitChars_zero, Nat.mul_comm]

@[simp] theorem readDigits_zeros (count : Nat) : readDigits (List.replicate count '0') = 0 := by
  rw [readDigits_eq, Nat.ofDigitChars_replicate_zero, Nat.mul_zero]

/-! ### Written numbers -/

theorem allDigits_digits (n : Nat) : AllDigits (digits n) :=
  fun _ h => Nat.isDigit_of_mem_toDigits (by decide) (by decide) h

theorem digits_ne_nil (n : Nat) : digits n ≠ [] :=
  Nat.toDigits_ne_nil

@[simp] theorem readDigits_digits (n : Nat) : readDigits (digits n) = n := by
  rw [readDigits_eq, digits, Nat.ofDigitChars_ten_toDigits]

theorem head?_digits (n : Nat) (h : 0 < n) : (digits n).head? ≠ some '0' := by
  induction n using Nat.strong_induction_on with
  | _ n ih =>
      unfold digits at ih ⊢
      by_cases hn : n < 10
      · rw [Nat.toDigits_of_lt_base hn]
        intro hzero
        have := Nat.toNat_digitChar_of_lt_ten hn
        simp only [List.head?_cons, Option.some.injEq] at hzero
        rw [hzero, show '0'.toNat = 48 from rfl] at this
        omega
      · have hfront := ih (n / 10) (by omega) (by omega)
        rw [Nat.toDigits_of_base_le (by decide) (by omega), List.head?_append]
        cases hd : (Nat.toDigits 10 (n / 10)).head? with
        | none => exact absurd (List.head?_eq_none_iff.mp hd) Nat.toDigits_ne_nil
        | some c => rwa [hd] at hfront

theorem padded_eq (width n : Nat) :
    padded width n = List.replicate (width - (digits n).length) '0' ++ digits n :=
  rfl

theorem allDigits_padded (width n : Nat) : AllDigits (padded width n) := by
  rw [padded_eq]
  refine AllDigits.append (fun c hc => ?_) (allDigits_digits n)
  rw [List.eq_of_mem_replicate hc]
  rfl

@[simp] theorem readDigits_padded (width n : Nat) : readDigits (padded width n) = n := by
  rw [padded_eq, readDigits_append, readDigits_zeros, readDigits_digits, Nat.zero_mul, Nat.zero_add]

theorem length_digits_le {width n : Nat} (hwidth : 0 < width) (h : n < 10 ^ width) :
    (digits n).length ≤ width :=
  (Nat.length_toDigits_le_iff (by decide) hwidth).mpr h

theorem width_le_length_padded (width n : Nat) : width ≤ (padded width n).length := by
  rw [padded_eq, List.length_append, List.length_replicate]
  omega

theorem padded_ne_nil {width : Nat} (hwidth : 0 < width) (n : Nat) : padded width n ≠ [] :=
  List.ne_nil_of_length_pos (Nat.lt_of_lt_of_le hwidth (width_le_length_padded width n))

theorem length_padded {width n : Nat} (hwidth : 0 < width) (h : n < 10 ^ width) :
    (padded width n).length = width := by
  have := length_digits_le hwidth h
  rw [padded_eq, List.length_append, List.length_replicate]
  omega

/-! ### Runs of one length -/

theorem toNat_of_isDigit {c : Char} (h : c.isDigit = true) :
    c.toNat = 48 + digitValue c ∧ digitValue c < 10 := by
  obtain ⟨hlower, hupper⟩ := Char.isDigit_iff_toNat.mp h
  simp only [show '0'.toNat = 48 from rfl, show '9'.toNat = 57 from rfl] at hlower hupper
  simp only [digitValue, show '0'.toNat = 48 from rfl]
  omega

theorem readDigits_cons (c : Char) (cs : List Char) :
    readDigits (c :: cs) = digitValue c * 10 ^ cs.length + readDigits cs := by
  have hone : readDigits [c] = digitValue c := by
    simp [readDigits]
  rw [← List.singleton_append, readDigits_append, hone]

theorem readDigits_lt {cs : List Char} (h : AllDigits cs) : readDigits cs < 10 ^ cs.length := by
  induction cs with
  | nil => decide
  | cons c cs ih =>
      have hfirst := (toNat_of_isDigit (h c List.mem_cons_self)).2
      have hrest := ih h.tail
      have hmul : digitValue c * 10 ^ cs.length ≤ 9 * 10 ^ cs.length :=
        Nat.mul_le_mul_right _ (by omega)
      rw [readDigits_cons, List.length_cons, Nat.pow_succ]
      omega

theorem lt_of_readDigits_lt {cs ds : List Char} (hcs : AllDigits cs) (hds : AllDigits ds)
    (hlength : cs.length = ds.length) (h : readDigits cs < readDigits ds) : cs < ds := by
  induction cs generalizing ds with
  | nil =>
      have hnil : ds = [] := List.length_eq_zero_iff.mp hlength.symm
      rw [hnil] at h
      exact absurd h (lt_irrefl _)
  | cons c cs ih =>
      cases ds with
      | nil => simp at hlength
      | cons d ds =>
          have hc := (toNat_of_isDigit (hcs c List.mem_cons_self)).1
          have hd := (toNat_of_isDigit (hds d List.mem_cons_self)).1
          have hrest : cs.length = ds.length := by simpa using hlength
          have hlt := readDigits_lt hds.tail
          rw [readDigits_cons, readDigits_cons, hrest] at h
          rw [List.cons_lt_cons_iff]
          rcases Nat.lt_trichotomy (digitValue c) (digitValue d) with hvalue | hvalue | hvalue
          · left
            rw [Char.lt_def, UInt32.lt_iff_toNat_lt]
            show c.toNat < d.toNat
            omega
          · right
            have heq : c = d := Char.toNat_inj.mp (by omega)
            rw [hvalue] at h
            exact ⟨heq, ih hcs.tail hds.tail hrest (by omega)⟩
          · -- a greater first digit makes the number greater, whatever follows
            exfalso
            have hmul : (digitValue d + 1) * 10 ^ ds.length ≤ digitValue c * 10 ^ ds.length :=
              Nat.mul_le_mul_right _ hvalue
            rw [Nat.succ_mul] at hmul
            omega

theorem eq_of_readDigits_eq {cs ds : List Char} (hcs : AllDigits cs) (hds : AllDigits ds)
    (hlength : cs.length = ds.length) (h : readDigits cs = readDigits ds) : cs = ds := by
  induction cs generalizing ds with
  | nil => exact (List.length_eq_zero_iff.mp hlength.symm).symm
  | cons c cs ih =>
      cases ds with
      | nil => simp at hlength
      | cons d ds =>
          have hc := (toNat_of_isDigit (hcs c List.mem_cons_self)).1
          have hd := (toNat_of_isDigit (hds d List.mem_cons_self)).1
          have hrest : cs.length = ds.length := by simpa using hlength
          have hlt := readDigits_lt hcs.tail
          have hlt' := readDigits_lt hds.tail
          rw [readDigits_cons, readDigits_cons, hrest] at h
          rw [hrest] at hlt
          have hquotient (v r : Nat) (hr : r < 10 ^ ds.length) :
              (v * 10 ^ ds.length + r) / 10 ^ ds.length = v := by
            rw [Nat.mul_comm, Nat.mul_add_div (Nat.pow_pos (by decide)), Nat.div_eq_of_lt hr,
              Nat.add_zero]
          have hvalue : digitValue c = digitValue d := by
            rw [← hquotient (digitValue c) _ hlt, h, hquotient _ _ hlt']
          rw [hvalue] at h
          have heq : c = d := Char.toNat_inj.mp (by omega)
          rw [heq, ih hcs.tail hds.tail hrest (by omega)]

theorem lt_iff_readDigits_lt {cs ds : List Char} (hcs : AllDigits cs) (hds : AllDigits ds)
    (hlength : cs.length = ds.length) : cs < ds ↔ readDigits cs < readDigits ds := by
  refine ⟨fun h => ?_, lt_of_readDigits_lt hcs hds hlength⟩
  rcases Nat.lt_trichotomy (readDigits cs) (readDigits ds) with hlt | heq | hgt
  · exact hlt
  · rw [eq_of_readDigits_eq hcs hds hlength heq] at h
    exact absurd h (List.lt_irrefl ds)
  · exact absurd (lt_of_readDigits_lt hds hcs hlength.symm hgt) (List.lt_asymm h)

theorem padded_readDigits {cs : List Char} (h : AllDigits cs) (hne : cs ≠ []) :
    padded cs.length (readDigits cs) = cs := by
  have hlength := length_padded (List.length_pos_iff.mpr hne) (readDigits_lt h)
  exact eq_of_readDigits_eq (allDigits_padded _ _) h hlength (readDigits_padded _ _)

/-- **A run of digits without superfluous zeros is what is written for its number.** -/
theorem digits_readDigits {cs : List Char} (h : AllDigits cs) (hne : cs ≠ [])
    (hzero : cs.head? = some '0' → cs = ['0']) : digits (readDigits cs) = cs := by
  have hpadded := padded_readDigits h hne
  rw [padded_eq] at hpadded
  cases hcount : cs.length - (digits (readDigits cs)).length with
  | zero => rwa [hcount, List.replicate_zero, List.nil_append] at hpadded
  | succ count =>
      -- padding would bring a zero to the front
      rw [hcount, List.replicate_succ] at hpadded
      rw [hzero (by rw [← hpadded]; rfl)]
      rfl

/-! ### Digits before and behind a point -/

/-- The digits of a number but for the last so many; there is at least one. -/
def frontDigits (places n : Nat) : List Char :=
  (padded (places + 1) n).take ((padded (places + 1) n).length - places)

/-- So many digits at the end of a number. -/
def lastDigits (places n : Nat) : List Char :=
  (padded (places + 1) n).drop ((padded (places + 1) n).length - places)

section places

variable (places n : Nat)

theorem allDigits_frontDigits : AllDigits (frontDigits places n) :=
  (allDigits_padded _ n).take _

theorem allDigits_lastDigits : AllDigits (lastDigits places n) :=
  (allDigits_padded _ n).drop _

theorem frontDigits_ne_nil : frontDigits places n ≠ [] := by
  have := width_le_length_padded (places + 1) n
  rw [frontDigits, ← List.length_pos_iff, List.length_take]
  omega

@[simp] theorem length_lastDigits : (lastDigits places n).length = places := by
  have := width_le_length_padded (places + 1) n
  rw [lastDigits, List.length_drop]
  omega

/-- The digits before the point count whole units, of which those behind it are parts. -/
theorem readDigits_frontDigits :
    readDigits (frontDigits places n) * 10 ^ places + readDigits (lastDigits places n) = n := by
  have h := readDigits_append (frontDigits places n) (lastDigits places n)
  rw [length_lastDigits] at h
  rw [← h, frontDigits, lastDigits, List.take_append_drop, readDigits_padded]

/-- The digits before the point start with a zero only if there is no other one. -/
theorem frontDigits_of_zero (h : (frontDigits places n).head? = some '0') :
    frontDigits places n = ['0'] := by
  by_cases hlong : places + 1 < (digits n).length
  · have hpad : places + 1 - (digits n).length = 0 := by omega
    have hpos : 0 < n := by
      refine Nat.pos_of_ne_zero ?_
      rintro rfl
      have hone : (digits 0).length = 1 := rfl
      omega
    rw [frontDigits, padded_eq, hpad, List.replicate_zero, List.nil_append,
      List.head?_take, if_neg (by omega)] at h
    exact absurd h (head?_digits n hpos)
  · have hwidth : (padded (places + 1) n).length = places + 1 := by
      rw [padded_eq, List.length_append, List.length_replicate]
      omega
    have hlength : (frontDigits places n).length = 1 := by
      rw [frontDigits, List.length_take, hwidth]
      omega
    obtain ⟨c, hc⟩ := List.length_eq_one_iff.mp hlength
    rw [hc, List.head?_cons, Option.some.injEq] at h
    rw [hc, h]

end places

end Posting.Text
