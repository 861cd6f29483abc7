import Posting.Json.Scan
import Posting.Json.Writer
import Posting.Proofs.Digits
import Posting.Proofs.Results

/-! # Scalars of a JSON text read back

What the writer makes of a string, of an integer and of null is read back by `scanHead`, and what
follows it in the text is left: `scanHead_stringText`, `scanHead_integer`, `scanHead_null`.  A
number needs to know what follows, since a digit, a point or an exponent would belong to it
(`EndsNumber`). -/

namespace Posting.Json

open Text

/-! ### Space -/

/-- A text of nothing but space. -/
def AllSpace (cs : List Char) : Prop :=
  ∀ c ∈ cs, isSpace c = true

theorem skipSpace_append {space : List Char} (h : AllSpace space) (cs : List Char) :
    skipSpace (space ++ cs) = skipSpace cs :=
  List.dropWhile_append_of_pos h

theorem skipSpace_cons {c : Char} (h : isSpace c = false) (rest : List Char) :
    skipSpace (c :: rest) = c :: rest := by
  simp [skipSpace, h]

theorem scanHead_append {space : List Char} (h : AllSpace space) (cs : List Char) :
    scanHead (space ++ cs) = scanHead cs := by
  unfold scanHead
  rw [skipSpace_append h]

/-! ### Strings -/

theorem length_escape_pos (c : Char) : 1 ≤ (escape c).length := by
  unfold escape
  repeat' split
  all_goals simp

theorem length_le_flatMap_escape (cs : List Char) : cs.length ≤ (cs.flatMap escape).length := by
  induction cs with
  | nil => simp
  | cons c rest ih =>
      have := length_escape_pos c
      rw [List.flatMap_cons, List.length_append, List.length_cons]
      omega

theorem scanHex_control {n : Nat} (h : n < 0x20) (rest : List Char) :
    scanHex ((hexDigits n).leftpad 4 '0' ++ rest) = .ok (n, rest) := by
  have table : ∀ n < 0x20, ((hexDigits n).leftpad 4 '0').length = 4 ∧
      hasBytes 4 ((hexDigits n).leftpad 4 '0') = true ∧
      ((hexDigits n).leftpad 4 '0').mapM hexValue? = some [0, 0, n / 16, n % 16] := by
    decide
  obtain ⟨hlength, hbytes, hvalues⟩ := table n h
  have htake : ((hexDigits n).leftpad 4 '0' ++ rest).take 4 = (hexDigits n).leftpad 4 '0' :=
    List.take_left' hlength
  have hdrop : ((hexDigits n).leftpad 4 '0' ++ rest).drop 4 = rest := List.drop_left' hlength
  have hbytes' : hasBytes 4 ((hexDigits n).leftpad 4 '0' ++ rest) = true := by
    rw [hasBytes, List.take_of_length_le hlength.le] at hbytes
    rw [hasBytes, htake]
    exact hbytes
  have hn : ((0 * 16 + 0) * 16 + n / 16) * 16 + n % 16 = n := by omega
  simp only [scanHex, hbytes', htake, hdrop, hvalues, hn, Bool.not_true, Bool.false_eq_true,
    if_false]

theorem scanCharacters_escape (c b : Char) (bound done rest : List Char) :
    scanCharacters (b :: bound) done (escape c ++ rest) =
      scanCharacters bound (c :: done) rest := by
  unfold escape
  split
  · subst c; rfl
  split
  · subst c; rfl
  split
  · subst c; rfl
  split
  · subst c; rfl
  split
  · subst c; rfl
  split
  · subst c; rfl
  split
  · subst c; rfl
  split
  · rename_i hcontrol
    have hescape : scanEscape ('u' :: ((hexDigits c.toNat).leftpad 4 '0' ++ rest)) =
        .ok (c, rest) := by
      rw [scanEscape, scanHex_control hcontrol, ok_bind]
      simp only
      rw [if_neg (by omega), if_neg (by omega), Char.ofNat_toNat]
    rw [List.cons_append, List.cons_append, scanCharacters, if_neg (by decide), if_pos rfl, hescape]
  · rename_i hquote hslash _ _ _ _ _ hcontrol
    rw [List.singleton_append, scanCharacters, if_neg hquote, if_neg hslash, if_neg hcontrol]

theorem scanCharacters_string (cs bound done rest : List Char) (h : cs.length < bound.length) :
    scanCharacters bound done (cs.flatMap escape ++ '"' :: rest) =
      .ok (String.ofList (done.reverse ++ cs), rest) := by
  induction cs generalizing bound done with
  | nil =>
      obtain ⟨b, bound, rfl⟩ := List.exists_cons_of_length_pos h
      simp [scanCharacters]
  | cons c tail ih =>
      obtain ⟨b, bound, rfl⟩ := List.exists_cons_of_length_pos (Nat.zero_lt_of_lt h)
      simp only [List.length_cons, Nat.add_lt_add_iff_right] at h
      rw [List.flatMap_cons, List.append_assoc, scanCharacters_escape, ih bound (c :: done) h,
        List.reverse_cons, List.append_assoc, List.singleton_append]

theorem scanString_stringText (s : String) (rest : List Char) :
    scanString (s.toList.flatMap escape ++ '"' :: rest) = .ok (s, rest) := by
  have hlength := length_le_flatMap_escape s.toList
  unfold scanString
  rw [scanCharacters_string, List.reverse_nil, List.nil_append, String.ofList_toList]
  rw [List.length_append, List.length_cons]
  omega

theorem stringText_append (s : String) (rest : List Char) :
    stringText s ++ rest = '"' :: (s.toList.flatMap escape ++ '"' :: rest) := by
  simp [stringText]

theorem scanHead_stringText (s : String) (rest : List Char) :
    scanHead (stringText s ++ rest) = .ok (.string s, rest) := by
  rw [stringText_append]
  show (scanString _).map _ = _
  rw [scanString_stringText]
  rfl

/-! ### Numbers -/

/-- A text that does not go on with a part of a number. -/
def EndsNumber (rest : List Char) : Prop :=
  ∀ c ∈ rest.head?, c.isDigit = false ∧ c ≠ '.' ∧ c ≠ 'e' ∧ c ≠ 'E'

theorem EndsNumber.startsWithDigit {rest : List Char} (h : EndsNumber rest) :
    startsWithDigit rest = false := by
  cases rest with
  | nil => rfl
  | cons c tail => exact (h c rfl).1

theorem EndsNumber.startsWithExponent {rest : List Char} (h : EndsNumber rest) :
    startsWithExponent rest = false := by
  cases rest with
  | nil => rfl
  | cons c tail => simp [Json.startsWithExponent, h c rfl]

theorem le_ofDigitChars (n : Nat) (cs : List Char) : n ≤ Nat.ofDigitChars 10 cs n := by
  rw [Nat.ofDigitChars_eq_ofDigitChars_zero]
  have := Nat.le_mul_of_pos_left n (Nat.pow_pos (show 0 < 10 by decide) : 0 < 10 ^ cs.length)
  omega

theorem scanDigits_digits {cs rest : List Char} (h : AllDigits cs)
    (hrest : startsWithDigit rest = false) (n : Nat)
    (hlt : Nat.ofDigitChars 10 cs n < 0x10000000000000000) :
    scanDigits n (cs ++ rest) = (Nat.ofDigitChars 10 cs n, cs.length, rest) := by
  induction cs generalizing n with
  | nil =>
      cases rest with
      | nil => rfl
      | cons c tail =>
          have hc : c.isDigit = false := hrest
          simp [scanDigits, hc]
  | cons c tail ih =>
      have hnext : n * 10 + digitValue c = 10 * n + (c.toNat - '0'.toNat) := by
        rw [digitValue, Nat.mul_comm]
      rw [Nat.ofDigitChars_cons] at hlt ⊢
      have hle := le_ofDigitChars (10 * n + (c.toNat - '0'.toNat)) tail
      rw [List.cons_append, scanDigits]
      simp only [hnext]
      rw [if_pos ⟨h c List.mem_cons_self, by omega⟩, ih h.tail _ hlt]
      rfl

theorem scanNumber_digits {n : Nat} {rest : List Char} (negative : Bool)
    (hlt : n < 0x10000000000000000) (hrest : EndsNumber rest) :
    scanNumber negative (digits n ++ rest) = finishNumber negative n rest := by
  obtain ⟨c, tail, hc, heq⟩ := (allDigits_digits n).exists_cons (digits_ne_nil n)
  by_cases hn : n = 0
  · subst hn
    show scanNumber negative ('0' :: rest) = _
    rw [scanNumber, if_pos rfl, hrest.startsWithDigit, if_neg (by decide)]
  · have hhead : c ≠ '0' := by
      intro hzero
      exact head?_digits n (by omega) (by rw [heq, hzero]; rfl)
    have hvalue : Nat.ofDigitChars 10 (digits n) 0 = n := by
      rw [← readDigits_eq, readDigits_digits]
    have hscan : scanDigits 0 (digits n ++ rest) = (n, (digits n).length, rest) := by
      rw [scanDigits_digits (allDigits_digits n) hrest.startsWithDigit 0 (hvalue.symm ▸ hlt), hvalue]
    rw [heq, List.cons_append] at hscan ⊢
    rw [scanNumber, if_neg hhead, if_pos hc, hscan]
    simp only [hrest.startsWithDigit, Bool.false_eq_true, if_false]

theorem finishNumber_false (n : Nat) {rest : List Char} (hrest : EndsNumber rest) :
    finishNumber false n rest = .ok (.integer n, rest) := by
  unfold finishNumber
  split
  · exact absurd rfl (hrest '.' rfl).2.1
  · rw [hrest.startsWithExponent]
    rfl

theorem finishNumber_true {n : Nat} {rest : List Char} (hpos : 0 < n)
    (hle : n ≤ 0x8000000000000000) (hrest : EndsNumber rest) :
    finishNumber true n rest = .ok (.integer (-(n : Int)), rest) := by
  unfold finishNumber
  split
  · exact absurd rfl (hrest '.' rfl).2.1
  · rw [hrest.startsWithExponent, if_neg (by decide), if_neg (by decide), if_neg (by omega)]

theorem isSpace_of_isDigit {c : Char} (h : c.isDigit = true) : isSpace c = false := by
  simp only [isSpace, Bool.or_eq_false_iff, beq_eq_false_iff_ne]
  exact ⟨⟨⟨ne_of_isDigit h rfl, ne_of_isDigit h rfl⟩, ne_of_isDigit h rfl⟩, ne_of_isDigit h rfl⟩

theorem scanHead_digit {c : Char} (h : c.isDigit = true) (rest : List Char) :
    scanHead (c :: rest) =
      (scanNumber false (c :: rest)).map (fun (n, rest) => (.number n, rest)) := by
  have hbrace : c ≠ Char.ofNat 0x7B := ne_of_isDigit h (by decide)
  unfold scanHead
  rw [skipSpace_cons (isSpace_of_isDigit h)]
  split
  all_goals try
    rename_i heq
    rw [List.cons.injEq] at heq
    exact absurd heq.1 (ne_of_isDigit h rfl)
  · rename_i heq
    cases heq
  · rename_i heq
    rw [List.cons.injEq] at heq
    obtain ⟨rfl, rfl⟩ := heq
    rw [if_neg hbrace, if_pos h]

theorem scanHead_integer {n : Int} {rest : List Char} (hlow : -0x8000000000000000 ≤ n)
    (hhigh : n < 0x8000000000000000) (hrest : EndsNumber rest) :
    scanHead (Text.integer n ++ rest) = .ok (.number (.integer n), rest) := by
  unfold Text.integer
  by_cases hneg : n < 0
  · have habs : -(n.natAbs : Int) = n := by omega
    rw [if_pos hneg, List.cons_append]
    show (scanNumber true (digits n.natAbs ++ rest)).map _ = _
    rw [scanNumber_digits true (by omega) hrest, finishNumber_true (by omega) (by omega) hrest,
      ok_map, habs]
  · have habs : (n.natAbs : Int) = n := by omega
    obtain ⟨c, tail, hc, heq⟩ := (allDigits_digits n.natAbs).exists_cons (digits_ne_nil _)
    rw [if_neg hneg]
    have hnumber := scanNumber_digits false (show n.natAbs < 0x10000000000000000 by omega) hrest
    rw [heq, List.cons_append] at hnumber ⊢
    rw [scanHead_digit hc, hnumber, finishNumber_false _ hrest, ok_map, habs]

/-! ### Null -/

theorem scanHead_null (rest : List Char) :
    scanHead ("null".toList ++ rest) = .ok (.null, rest) :=
  rfl

end Posting.Json
