import Mathlib.Data.List.DropRight
import Posting.Proofs.JsonGrammar

/-! # What the scanners of JSON texts accept

Whatever a scanner takes off the front of a text is written there as the grammar has it.

* `of_scanString`, `of_scanNumber` and `headed_of_scanHead`: a scalar that is read is written as
  what it is read as.
* `of_skipCharacters`, `of_skipNumber` and `of_skipValue`: what is passed over is a string, a number or
  a value of any depth.  `Closes` is what the containers that are open still demand of the text, and
  each step of the reader leaves that to be done (`Resumes`).
* `of_nextItem`, `of_nextName` and their kin do the same for what stands between values. -/

namespace Posting.Json

open Text

/-! ### Words -/

theorem skipSpace_skipSpace (cs : List Char) : skipSpace (skipSpace cs) = skipSpace cs :=
  List.dropWhile_idempotent _ _

theorem eq_append_of_scanWord {word cs rest : List Char} (h : scanWord word cs = .ok rest) :
    cs = word ++ rest := by
  induction word generalizing cs with
  | nil =>
      cases h
      rfl
  | cons w word ih =>
      cases cs with
      | nil => cases h
      | cons c cs =>
          rw [scanWord] at h
          split at h
          · next hc => rw [hc, ih h, List.cons_append]
          · cases h

theorem Begins.of_skipSpace {cs rest : List Char} {tree : Tree}
    (h : Begins (skipSpace cs) (.value tree) rest) : Begins cs (.value tree) rest := by
  cases h with
  | null word => exact .null (skipSpace_skipSpace cs ▸ word)
  | bool b word => exact .bool b (skipSpace_skipSpace cs ▸ word)
  | number digits => exact .number (skipSpace_skipSpace cs ▸ digits)
  | string quoted =>
      refine .string ?_
      rwa [BeginsString, skipSpace_skipSpace] at quoted
  | array bracket items => exact .array (skipSpace_skipSpace cs ▸ bracket) items
  | object bracket members => exact .object (skipSpace_skipSpace cs ▸ bracket) members

/-! ### Strings -/

theorem forall₂_of_mapM {α β : Type} {f : α → Option β} {list : List α} {values : List β}
    (h : list.mapM f = some values) : List.Forall₂ (fun a b => f a = some b) list values := by
  induction list generalizing values with
  | nil =>
      cases h
      exact .nil
  | cons a list ih =>
      simp only [List.mapM_cons, Option.bind_eq_bind, Option.bind_eq_some_iff, Option.pure_def,
        Option.some.injEq] at h
      obtain ⟨b, hb, rest, hrest, rfl⟩ := h
      exact .cons hb (ih hrest)

theorem of_scanHex {cs rest : List Char} {n : Nat} (h : scanHex cs = .ok (n, rest)) :
    ∃ digits, cs = digits ++ rest ∧
      (digits.length = 4 ∧ ∀ d ∈ digits, (hexValue? d).isSome = true) ∧ hexNumber digits = n := by
  unfold scanHex at h
  split at h
  · cases h
  · split at h
    · next a b c d hvalues =>
        cases h
        obtain ⟨p, _, hp, hpqrs, hdigits⟩ :=
          List.forall₂_cons_right_iff.mp (forall₂_of_mapM hvalues)
        obtain ⟨q, _, hq, hqrs, rfl⟩ := List.forall₂_cons_right_iff.mp hpqrs
        obtain ⟨r, _, hr, hrs, rfl⟩ := List.forall₂_cons_right_iff.mp hqrs
        obtain ⟨s, _, hs, hnil, rfl⟩ := List.forall₂_cons_right_iff.mp hrs
        rw [List.forall₂_nil_right_iff.mp hnil] at hdigits
        refine ⟨[p, q, r, s], ?_, ⟨rfl, ?_⟩, ?_⟩
        · rw [← hdigits, List.take_append_drop]
        · simp [hp, hq, hr, hs]
        · simp [hexNumber, hp, hq, hr, hs]
    · cases h

theorem of_scanSecondHalf {first : Nat} {cs rest : List Char} {c : Char}
    (h : scanSecondHalf first cs = .ok (c, rest)) :
    ∃ digits hexadecimal, cs = (Mark.unit digits hexadecimal).text ++ rest ∧
      IsSecondHalf (hexNumber digits) ∧ c = pairedChar first (hexNumber digits) := by
  unfold scanSecondHalf at h
  split at h
  · cases h
  · cases h
  · obtain ⟨⟨n, behind⟩, hhex, h⟩ := bind_eq_ok_iff.mp h
    obtain ⟨digits, rfl, hdigits, rfl⟩ := of_scanHex hhex
    simp only at h
    split at h
    · next hsecond =>
        obtain ⟨hc, rfl⟩ := Prod.mk.inj (Except.ok.inj h)
        exact ⟨digits, hdigits, rfl, hsecond, hc.symm⟩
    · cases h
  · cases h

/-- An escape is written as one mark or two, and stands for its character. -/
theorem of_scanEscape {cs rest : List Char} {c : Char} (h : scanEscape cs = .ok (c, rest)) :
    ∃ marks, '\\' :: cs = writtenMarks marks ++ rest ∧
      ∀ more, chars? (marks ++ more) = (chars? more).map (c :: ·) := by
  unfold scanEscape at h
  split at h
  · cases h
  · next tail =>
      obtain ⟨⟨n, behind⟩, hhex, h⟩ := bind_eq_ok_iff.mp h
      obtain ⟨digits, rfl, hdigits, rfl⟩ := of_scanHex hhex
      simp only at h
      by_cases hsecond : IsSecondHalf (hexNumber digits)
      · rw [if_pos hsecond] at h
        cases h
      rw [if_neg hsecond] at h
      by_cases hfirst : IsFirstHalf (hexNumber digits)
      · rw [if_pos hfirst] at h
        obtain ⟨digits', hdigits', rfl, hsecond', hpaired⟩ := of_scanSecondHalf h
        refine ⟨[.unit digits hdigits, .unit digits' hdigits'], ?_, fun more => ?_⟩
        · simp [writtenMarks, Mark.text]
        · rw [hpaired]
          exact chars?_pair hfirst hsecond' more
      · rw [if_neg hfirst] at h
        cases h
        exact ⟨[.unit digits hdigits], by simp [writtenMarks, Mark.text],
          chars?_unit hsecond hfirst⟩
  · next letter tail hu =>
      split at h
      · next e hletter =>
          cases h
          have hknown : (escaped? letter).isSome = true := by rw [hletter]; rfl
          refine ⟨[.letter letter hknown], rfl, fun more => ?_⟩
          rw [List.singleton_append, chars?]
          simp only [hletter, Option.get_some]
      · cases h

theorem of_scanCharacters {bound done cs rest : List Char} {s : String}
    (h : scanCharacters bound done cs = .ok (s, rest)) :
    ∃ marks more, cs = writtenMarks marks ++ '"' :: rest ∧ chars? marks = some more ∧
      s = String.ofList (done.reverse ++ more) := by
  induction bound generalizing done cs with
  | nil => cases h
  | cons b bound ih =>
      cases cs with
      | nil => cases h
      | cons c cs =>
          rw [scanCharacters] at h
          split at h
          · next hquote =>
              cases h
              refine ⟨[], [], ?_, rfl, ?_⟩
              · rw [hquote]
                rfl
              · rw [List.append_nil]
          split at h
          · next hslash =>
              split at h
              · next e behind hescape =>
                  obtain ⟨front, hfront, hchars⟩ := of_scanEscape hescape
                  obtain ⟨marks, more, rfl, hmarks, rfl⟩ := ih h
                  refine ⟨front ++ marks, e :: more, ?_, ?_, ?_⟩
                  · rw [hslash, hfront, writtenMarks, writtenMarks, writtenMarks,
                      List.flatMap_append, List.append_assoc]
                  · rw [hchars, hmarks, Option.map_some]
                  · rw [List.reverse_cons, List.append_assoc, List.singleton_append]
              · cases h
          split at h
          · cases h
          · next hquote hslash hcontrol =>
              obtain ⟨marks, more, rfl, hmarks, rfl⟩ := ih h
              refine ⟨.plain c ⟨hquote, hslash, hcontrol⟩ :: marks, c :: more, rfl, ?_, ?_⟩
              · rw [chars?, hmarks, Option.map_some]
              · rw [List.reverse_cons, List.append_assoc, List.singleton_append]

/-- **A string is written as marks that stand for it.** -/
theorem of_scanString {cs rest : List Char} {s : String} (h : scanString cs = .ok (s, rest)) :
    ∃ marks, cs = writtenMarks marks ++ '"' :: rest ∧ text? marks = some s := by
  obtain ⟨marks, more, hcs, hmarks, rfl⟩ := of_scanCharacters h
  exact ⟨marks, hcs, by rw [text?, hmarks]; rfl⟩

theorem of_skipCharacters {bound cs rest : List Char} (h : skipCharacters bound cs = .ok rest) :
    ∃ marks, cs = writtenMarks marks ++ '"' :: rest := by
  induction bound generalizing cs with
  | nil => cases h
  | cons b bound ih =>
      cases cs with
      | nil => cases h
      | cons c cs =>
          rw [skipCharacters.eq_def] at h
          simp only at h
          split at h
          · next hquote =>
              cases h
              exact ⟨[], by rw [hquote]; rfl⟩
          split at h
          · next hslash =>
              split at h
              · cases h
              · split at h
                · next n behind hhex =>
                    obtain ⟨digits, rfl, hdigits, -⟩ := of_scanHex hhex
                    obtain ⟨marks, rfl⟩ := ih h
                    refine ⟨.unit digits hdigits :: marks, ?_⟩
                    rw [hslash, writtenMarks_cons, List.append_assoc]
                    rfl
                · cases h
              · split at h
                · next hknown =>
                    obtain ⟨marks, rfl⟩ := ih h
                    exact ⟨.letter _ hknown :: marks, by rw [hslash]; rfl⟩
                · cases h
          split at h
          · cases h
          · next hquote hslash hcontrol =>
              obtain ⟨marks, rfl⟩ := ih h
              exact ⟨.plain c ⟨hquote, hslash, hcontrol⟩ :: marks, rfl⟩

/-! ### Numbers with a point or an exponent -/

section float

variable {negative : Bool} {digits : Nat} {power : Int} {cs rest : List Char} {n : Numeral}

theorem float_of_finishFloat (h : finishFloat negative digits power cs = .ok (n, rest)) :
    ∃ x, n = .float x := by
  unfold finishFloat at h
  split at h
  · cases h
    exact ⟨_, rfl⟩
  · cases h

theorem float_of_scanExponent (h : scanExponent negative digits power cs = .ok (n, rest)) :
    ∃ x, n = .float x := by
  unfold scanExponent at h
  simp only at h
  -- the same three times: for a plus, a minus and no sign
  split at h
  all_goals
    split at h
    · cases h
    split at h
    · cases h
    split at h
    · exact float_of_finishFloat h
    split at h
    · cases h
    · cases h
      exact ⟨_, rfl⟩

theorem float_of_scanPower (h : scanPower negative digits power cs = .ok (n, rest)) :
    ∃ x, n = .float x := by
  unfold scanPower at h
  split at h
  · exact float_of_scanExponent h
  · exact float_of_finishFloat h

theorem float_of_scanPlaces (h : scanPlaces negative digits power cs = .ok (n, rest)) :
    ∃ x, n = .float x := by
  unfold scanPlaces at h
  simp only at h
  split at h
  · exact float_of_scanPower h
  split at h
  · split at h <;> cases h
  · exact float_of_scanPower h

theorem float_of_finishLong (h : finishLong negative digits cs = .ok (n, rest)) :
    ∃ x, n = .float x := by
  unfold finishLong at h
  simp only at h
  split at h
  · exact float_of_scanPlaces h
  · exact float_of_scanPower h

end float

/-! ### Integers -/

/-- What remains of digits once some are taken off, and the number that they make. -/
theorem of_scanDigits (n : Nat) (cs : List Char) :
    ∃ run, AllDigits run ∧ cs = run ++ (scanDigits n cs).2.2 ∧
      (scanDigits n cs).1 = Nat.ofDigitChars 10 run n := by
  induction cs generalizing n with
  | nil => exact ⟨[], nofun, rfl, rfl⟩
  | cons c cs ih =>
      rw [scanDigits]
      simp only
      split
      · next hdigit =>
          obtain ⟨run, hrun, hcs, hn⟩ := ih (n * 10 + digitValue c)
          refine ⟨c :: run, List.forall_mem_cons.mpr ⟨hdigit.1, hrun⟩, ?_, ?_⟩
          · exact congrArg (c :: ·) hcs
          · rw [Nat.ofDigitChars_cons, Nat.mul_comm 10 n]
            exact hn
      · exact ⟨[], nofun, rfl, rfl⟩

theorem of_finishNumber {negative : Bool} {digits : Nat} {cs rest : List Char} {k : Int}
    (h : finishNumber negative digits cs = .ok (.integer k, rest)) :
    cs = rest ∧ k = if negative then -(digits : Int) else digits := by
  unfold finishNumber at h
  split at h
  · obtain ⟨x, ⟨⟩⟩ := float_of_scanPlaces h
  split at h
  · obtain ⟨x, ⟨⟩⟩ := float_of_scanExponent h
  split at h
  · next hpositive =>
      cases h
      rw [Bool.not_eq_true'] at hpositive
      exact ⟨rfl, by rw [hpositive]; rfl⟩
  split at h
  · cases h
  · next hnegative _ =>
      cases h
      rw [Bool.not_eq_true', Bool.not_eq_false] at hnegative
      exact ⟨rfl, by rw [hnegative]; rfl⟩

theorem exists_literal {run : List Char} (hrun : AllDigits run) (hne : run ≠ [])
    (hzero : run.head? = some '0' → run = ['0']) (negative : Bool) :
    ∃ l : Literal, l.negative = negative ∧ l.IsInteger ∧ l.whole = run ∧
      l.value = ((if negative then -(readDigits run : Int) else readDigits run : Int) : ℚ) := by
  refine ⟨⟨negative, run, [], none, hrun, hne, hzero, nofun⟩, rfl, ⟨rfl, rfl⟩, rfl, ?_⟩
  rw [Literal.value_of_isInteger ⟨rfl, rfl⟩]
  cases negative <;> simp

/-- **An integer that is scanned is written as one**, with the same value. -/
theorem of_scanNumber {negative : Bool} {cs rest : List Char} {k : Int}
    (h : scanNumber negative cs = .ok (.integer k, rest)) :
    ∃ l : Literal, l.negative = negative ∧ l.IsInteger ∧ cs = l.whole ++ rest ∧ l.value = k := by
  cases cs with
  | nil => cases h
  | cons c tail =>
      rw [scanNumber] at h
      split at h
      · next hzero =>
          split at h
          · cases h
          · obtain ⟨rfl, rfl⟩ := of_finishNumber h
            have hdigit : AllDigits ['0'] := List.forall_mem_singleton.mpr rfl
            obtain ⟨l, hnegative, hinteger, hwhole, hvalue⟩ :=
              exists_literal hdigit (List.cons_ne_nil _ _) (fun _ => rfl) negative
            refine ⟨l, hnegative, hinteger, ?_, hvalue⟩
            rw [hwhole, hzero]
            rfl
      split at h
      · next hzero hdigit =>
          obtain ⟨run, hrun, hcs, hn⟩ := of_scanDigits 0 (c :: tail)
          simp only at h
          split at h
          · obtain ⟨x, ⟨⟩⟩ := float_of_finishLong h
          · next hends =>
              obtain ⟨hrest, rfl⟩ := of_finishNumber h
              rw [hrest] at hcs hends
              have hne : run ≠ [] := by
                rintro rfl
                rw [List.nil_append] at hcs
                rw [← hcs] at hends
                exact hends hdigit
              have hhead : run.head? ≠ some '0' := by
                obtain ⟨d, run, rfl⟩ := List.exists_cons_of_ne_nil hne
                rw [List.cons_append, List.cons.injEq] at hcs
                intro hd
                exact hzero (hcs.1.trans (Option.some.inj hd))
              obtain ⟨l, hnegative, hinteger, hwhole, hvalue⟩ :=
                exists_literal hrun hne (fun h => absurd h hhead) negative
              refine ⟨l, hnegative, hinteger, by rw [hcs, hwhole], ?_⟩
              rw [hvalue, hn, readDigits_eq]
      · cases h

/-! ### Numbers that nobody asks for -/

theorem takeWhile_ne_nil {cs : List Char} (h : startsWithDigit cs = true) :
    cs.takeWhile Char.isDigit ≠ [] := by
  cases cs with
  | nil => cases h
  | cons c tail =>
      have hc : c.isDigit = true := h
      rw [List.takeWhile_cons_of_pos hc]
      exact List.cons_ne_nil _ _

theorem of_skipExponent {letter : Char} (hletter : letter = 'e' ∨ letter = 'E')
    {cs rest : List Char} (h : skipExponent cs = .ok rest) :
    ∃ e : Exponent, letter :: cs = e.text ++ rest := by
  obtain ⟨sign, digits, hsign, rfl, hdigits⟩ : ∃ sign digits,
      (sign = [] ∨ sign = ['+'] ∨ sign = ['-']) ∧ cs = sign ++ digits ∧
        (if startsWithDigit digits then .ok (digits.dropWhile Char.isDigit)
          else refuse .invalidNumber) = Except.ok (ε := Error) rest := by
    unfold skipExponent at h
    simp only at h
    split at h
    · exact ⟨['+'], _, Or.inr (Or.inl rfl), rfl, h⟩
    · exact ⟨['-'], _, Or.inr (Or.inr rfl), rfl, h⟩
    · exact ⟨[], _, Or.inl rfl, rfl, h⟩
  split at hdigits
  · next hstarts =>
      cases hdigits
      refine ⟨⟨letter, sign, digits.takeWhile Char.isDigit, hletter, hsign,
        allDigits_takeWhile digits, takeWhile_ne_nil hstarts⟩, ?_⟩
      rw [Exponent.text, List.cons_append, List.append_assoc, List.takeWhile_append_dropWhile]
  · cases hdigits

theorem of_skipPower {cs rest : List Char}
    (h : (if startsWithExponent cs then skipExponent cs.tail else .ok cs) = .ok rest) :
    ∃ e? : Option Exponent, cs = e?.elim [] Exponent.text ++ rest := by
  split at h
  · next hstarts =>
      cases cs with
      | nil => cases hstarts
      | cons letter tail =>
          have hletter : letter = 'e' ∨ letter = 'E' := by
            simpa [startsWithExponent] using hstarts
          obtain ⟨e, he⟩ := of_skipExponent hletter h
          exact ⟨some e, he⟩
  · cases h
    exact ⟨none, rfl⟩

theorem of_skipNumber {cs rest : List Char} (h : skipNumber cs = .ok rest) (negative : Bool) :
    ∃ l : Literal, l.negative = negative ∧
      cs = l.whole ++ (l.placesText ++ l.exponentText) ++ rest := by
  unfold skipNumber at h
  simp only at h
  split at h
  · cases h
  · next hwhole =>
      rw [not_or, not_and, Nat.not_lt] at hwhole
      have hne : cs.takeWhile Char.isDigit ≠ [] := fun hnil => hwhole.1 (by rw [hnil]; rfl)
      have hzero : (cs.takeWhile Char.isDigit).head? = some '0' →
          cs.takeWhile Char.isDigit = ['0'] := by
        intro hhead
        obtain ⟨c, hc⟩ := List.length_eq_one_iff.mp
          (Nat.le_antisymm (hwhole.2 hhead) (List.length_pos_iff.mpr hne))
        rw [hc] at hhead ⊢
        rw [Option.some.inj hhead]
      have hcs := (List.takeWhile_append_dropWhile (p := Char.isDigit) (l := cs)).symm
      split at h
      · next places hplaces =>
          split at h
          · cases h
          · next hstarts =>
              rw [Bool.not_eq_true', Bool.not_eq_false] at hstarts
              obtain ⟨e?, he⟩ := of_skipPower h
              refine ⟨⟨negative, _, places.takeWhile Char.isDigit, e?, allDigits_takeWhile cs, hne,
                hzero, allDigits_takeWhile places⟩, rfl, ?_⟩
              rw [Literal.placesText, if_neg (takeWhile_ne_nil hstarts), Literal.exponentText]
              rw [List.append_assoc, List.append_assoc, ← he, List.cons_append,
                List.takeWhile_append_dropWhile, ← hplaces]
              exact hcs
      · obtain ⟨e?, he⟩ := of_skipPower h
        refine ⟨⟨negative, _, [], e?, allDigits_takeWhile cs, hne, hzero, nofun⟩, rfl, ?_⟩
        rw [Literal.placesText, if_pos rfl, Literal.exponentText, List.nil_append,
          List.append_assoc, ← he]
        exact hcs

/-! ### Beginnings of values -/

/-- What the beginning of a scalar tells of it. -/
inductive Head.Tells : Head → Tree → Prop
  | null : Tells .null .null
  | bool (b : Bool) : Tells (.bool b) (.bool b)
  | integer {l : Literal} {k : Int} (written : l.IsInteger) (value : l.value = k) :
      Tells (.number (.integer k)) (.number l)
  | string {marks : List Mark} {s : String} (text : text? marks = some s) :
      Tells (.string s) (.string marks)

/-- What stands at the beginning of a value of which the head is scanned. -/
inductive Headed (cs : List Char) : Head → List Char → Prop
  | scalar {head : Head} {tree : Tree} {rest : List Char} (tells : head.Tells tree)
      (begins : Begins cs (.value tree) rest) : Headed cs head rest
  | float (x : Number.Binary64) (rest : List Char) : Headed cs (.number (.float x)) rest
  | array {rest : List Char} (bracket : skipSpace cs = '[' :: rest) : Headed cs .array rest
  | object {rest : List Char} (bracket : skipSpace cs = opening :: rest) : Headed cs .object rest

theorem headed_of_number {cs digits rest : List Char} {negative : Bool} {n : Numeral}
    (hcs : skipSpace cs = (if negative then ['-'] else []) ++ digits)
    (h : scanNumber negative digits = .ok (n, rest)) : Headed cs (.number n) rest := by
  cases n with
  | float x => exact .float x rest
  | integer k =>
      obtain ⟨l, rfl, hinteger, rfl, hvalue⟩ := of_scanNumber h
      refine .scalar (.integer hinteger hvalue) (.number ?_)
      rw [hcs, Literal.text, Literal.placesText, if_pos hinteger.1, Literal.exponentText,
        hinteger.2, Literal.signText]
      simp

/-- **The head of a value tells what is written there.** -/
theorem headed_of_scanHead {cs rest : List Char} {head : Head}
    (h : scanHead cs = .ok (head, rest)) : Headed cs head rest := by
  unfold scanHead at h
  split at h
  · cases h
  · next hcs =>
      obtain ⟨tail, hword, ⟨⟩⟩ := map_eq_ok_iff.mp h
      exact .scalar .null (.null (by rw [hcs, eq_append_of_scanWord hword]; rfl))
  · next hcs =>
      obtain ⟨tail, hword, ⟨⟩⟩ := map_eq_ok_iff.mp h
      exact .scalar (.bool true) (.bool true (by rw [hcs, eq_append_of_scanWord hword]; rfl))
  · next hcs =>
      obtain ⟨tail, hword, ⟨⟩⟩ := map_eq_ok_iff.mp h
      exact .scalar (.bool false) (.bool false (by rw [hcs, eq_append_of_scanWord hword]; rfl))
  · next hcs =>
      obtain ⟨⟨n, tail⟩, hnumber, ⟨⟩⟩ := map_eq_ok_iff.mp h
      exact headed_of_number hcs hnumber
  · next hcs =>
      obtain ⟨⟨s, tail⟩, hstring, ⟨⟩⟩ := map_eq_ok_iff.mp h
      obtain ⟨marks, rfl, htext⟩ := of_scanString hstring
      exact .scalar (.string htext) (.string hcs)
  · next hcs =>
      cases h
      exact .array hcs
  · next hcs =>
      split at h
      · next hc =>
          cases h
          exact .object (by rw [hcs, hc, opening])
      split at h
      · obtain ⟨⟨n, tail⟩, hnumber, ⟨⟩⟩ := map_eq_ok_iff.mp h
        refine headed_of_number ?_ hnumber
        exact hcs
      · cases h

/-! ### Separators -/

section separators

variable {first : Bool} {cs rest : List Char}

theorem of_nextItem {more : Bool} (h : nextItem first cs = .ok (more, rest)) :
    if more then ∃ behind, Continues first cs behind ∧ rest = skipSpace behind
    else ∃ tail, skipSpace cs = ']' :: tail ∧ rest = ']' :: tail := by
  unfold nextItem at h
  split at h
  · cases h
  · next hcs =>
      cases h
      exact ⟨_, hcs, rfl⟩
  · next c tail hne hcs =>
      split at h
      · next hfirst =>
          cases h
          exact ⟨cs, by rw [hfirst]; rfl, hcs.symm⟩
      · next hfirst =>
          rw [Bool.not_eq_true] at hfirst
          split at h
          · next hcomma =>
              split at h
              · cases h
              · cases h
              · cases h
                refine ⟨tail, ?_, rfl⟩
                rw [hfirst, Continues, if_neg Bool.false_ne_true, hcs, hcomma]
          · cases h

theorem of_closeArray (h : closeArray cs = .ok rest) : skipSpace cs = ']' :: rest := by
  unfold closeArray at h
  split at h
  · cases h
  · next hcs =>
      cases h
      exact hcs
  · split at h <;> cases h
  · cases h

theorem of_nextName {name? : Option String} (h : nextName first cs = .ok (name?, rest)) :
    match name? with
    | none => skipSpace cs = closing :: rest
    | some name => ∃ behind key, Continues first cs behind ∧ BeginsString behind key rest ∧
        text? key = some name := by
  unfold nextName at h
  split at h
  · cases h
  · next c tail hcs =>
      split at h
      · next hc =>
          cases h
          exact hc ▸ hcs
      split at h
      · next hfirst =>
          split at h
          · next hquote =>
              obtain ⟨⟨s, left⟩, hstring, ⟨⟩⟩ := map_eq_ok_iff.mp h
              obtain ⟨key, rfl, htext⟩ := of_scanString hstring
              refine ⟨cs, key, by rw [hfirst]; rfl, ?_, htext⟩
              rw [BeginsString, hcs, hquote]
          · cases h
      · next hfirst =>
          rw [Bool.not_eq_true] at hfirst
          split at h
          · next hcomma =>
              split at h
              · cases h
              · next c' tail' hcs' =>
                  split at h
                  · next hquote =>
                      obtain ⟨⟨s, left⟩, hstring, ⟨⟩⟩ := map_eq_ok_iff.mp h
                      obtain ⟨key, rfl, htext⟩ := of_scanString hstring
                      refine ⟨tail, key, ?_, ?_, htext⟩
                      · rw [hfirst, Continues, if_neg Bool.false_ne_true, hcs, hcomma]
                      · rw [BeginsString, hcs', hquote]
                  · split at h <;> cases h
          · cases h

theorem of_scanColon (h : scanColon cs = .ok rest) : skipSpace cs = ':' :: rest := by
  unfold scanColon at h
  split at h
  · cases h
  · next hcs =>
      split at h
      · next hc =>
          cases h
          exact hc ▸ hcs
      · cases h

end separators

/-! ### Values that nobody asks for -/

/-- What is passed over at the beginning of a value is a scalar, or the bracket of a container. -/
theorem of_skipHead {bracket? : Option Char} {cs rest : List Char}
    (h : skipHead cs = .ok (bracket?, rest)) :
    match bracket? with
    | none => ∃ tree, Begins cs (.value tree) rest
    | some bracket => (bracket = '[' ∨ bracket = opening) ∧ skipSpace cs = bracket :: rest := by
  unfold skipHead at h
  split at h
  · cases h
  · next hcs =>
      obtain ⟨tail, hword, ⟨⟩⟩ := map_eq_ok_iff.mp h
      exact ⟨_, .null (by rw [hcs, eq_append_of_scanWord hword]; rfl)⟩
  · next hcs =>
      obtain ⟨tail, hword, ⟨⟩⟩ := map_eq_ok_iff.mp h
      exact ⟨_, .bool true (by rw [hcs, eq_append_of_scanWord hword]; rfl)⟩
  · next hcs =>
      obtain ⟨tail, hword, ⟨⟩⟩ := map_eq_ok_iff.mp h
      exact ⟨_, .bool false (by rw [hcs, eq_append_of_scanWord hword]; rfl)⟩
  · next hcs =>
      obtain ⟨tail, hnumber, ⟨⟩⟩ := map_eq_ok_iff.mp h
      obtain ⟨l, hnegative, rfl⟩ := of_skipNumber hnumber true
      refine ⟨_, .number (l := l) ?_⟩
      rw [hcs, Literal.text, Literal.signText, hnegative]
      simp
  · next hcs =>
      obtain ⟨tail, hstring, ⟨⟩⟩ := map_eq_ok_iff.mp h
      obtain ⟨marks, rfl⟩ := of_skipCharacters hstring
      exact ⟨_, .string hcs⟩
  · next c tail hcs =>
      split at h
      · next hc =>
          cases h
          exact ⟨hc, hcs⟩
      split at h
      · obtain ⟨tail', hnumber, ⟨⟩⟩ := map_eq_ok_iff.mp h
        obtain ⟨l, hnegative, htext⟩ := of_skipNumber hnumber false
        refine ⟨_, .number (l := l) ?_⟩
        rw [hcs, htext, Literal.text, Literal.signText, hnegative]
        simp
      · cases h

theorem of_skipName {cs rest : List Char} (h : skipName cs = .ok rest) :
    ∃ key named, BeginsString cs key named ∧ skipSpace named = ':' :: rest := by
  unfold skipName at h
  split at h
  · cases h
  · next c tail hcs =>
      split at h
      · next hquote =>
          obtain ⟨named, hstring, hcolon⟩ := bind_eq_ok_iff.mp h
          obtain ⟨key, rfl⟩ := of_skipCharacters hstring
          exact ⟨key, named, by rw [BeginsString, hcs, hquote], of_scanColon hcolon⟩
      · cases h

/-- The rest of a container that a bracket has opened. -/
def Fills (bracket : Char) (first : Bool) (cs rest : List Char) : Prop :=
  if bracket = '[' then ∃ trees, Begins cs (.items first trees) rest
  else ∃ entries, Begins cs (.members first entries) rest

/-- What the containers that are open, the innermost first, still demand of a text behind a value in
the innermost. -/
def Closes : (opened cs rest : List Char) → Prop
  | [], cs, rest => cs = rest
  | bracket :: opened, cs, rest =>
    ∃ between, Fills bracket false cs between ∧ Closes opened between rest

/-- A text behind which `goal` is reached: at once if no container is open, and else behind a value
and the rest of the containers. -/
def Resumes (opened behind : List Char) (goal : List Char → Prop) : Prop :=
  ∀ rest, (opened = [] ∧ behind = rest ∨
    ∃ tree between, Begins behind (.value tree) between ∧ opened ≠ [] ∧
      Closes opened between rest) → goal rest

theorem Resumes.mono {opened behind : List Char} {goal goal' : List Char → Prop}
    (h : Resumes opened behind goal) (hgoal : ∀ rest, goal rest → goal' rest) :
    Resumes opened behind goal' :=
  fun rest hrest => hgoal rest (h rest hrest)

theorem resumes_cons {bracket : Char} {opened behind : List Char} {goal : List Char → Prop}
    (h : ∀ tree between inside rest, Begins behind (.value tree) between →
      Fills bracket false between inside → Closes opened inside rest → goal rest) :
    Resumes (bracket :: opened) behind goal := by
  rintro rest (⟨⟨⟩, -⟩ | ⟨tree, between, hvalue, -, inside, hfills, hcloses⟩)
  exact h tree between inside rest hvalue hfills hcloses

theorem fills_item {first : Bool} {cs more between rest : List Char} {tree : Tree}
    (comma : Continues first cs more) (value : Begins more (.value tree) between)
    (h : Fills '[' false between rest) : Fills '[' first cs rest := by
  obtain ⟨trees, hitems⟩ := h
  exact ⟨tree :: trees, .item comma value hitems⟩

theorem fills_member {bracket : Char} (hbracket : bracket ≠ '[') {first : Bool}
    {cs more named behind between rest : List Char} {key : List Mark} {tree : Tree}
    (comma : Continues first cs more) (name : BeginsString more key named)
    (colon : skipSpace named = ':' :: behind) (value : Begins behind (.value tree) between)
    (h : Fills bracket false between rest) : Fills bracket first cs rest := by
  rw [Fills, if_neg hbracket] at h ⊢
  obtain ⟨entries, hmembers⟩ := h
  exact ⟨(key, tree) :: entries, .member comma name colon value hmembers⟩

/-- Containers are closed, up to one that goes on. -/
theorem resumes_of_closeContainers {opened cs opened' behind : List Char}
    (h : closeContainers opened cs = .ok (opened', behind)) :
    Resumes opened' behind (Closes opened cs) := by
  induction opened generalizing cs with
  | nil =>
      cases h
      rintro rest (⟨-, rfl⟩ | ⟨_, _, _, hne, -⟩)
      · rfl
      · exact absurd rfl hne
  | cons bracket opened ih =>
      rw [closeContainers] at h
      split at h
      · next hbracket =>
          subst hbracket
          split at h
          · cases h
          · next hcs => exact (ih h).mono fun rest hrest => ⟨_, ⟨[], .noItem hcs⟩, hrest⟩
          · next hcs =>
              cases h
              refine resumes_cons fun tree between inside rest hvalue hfills hcloses => ?_
              exact ⟨inside, fills_item hcs hvalue hfills, hcloses⟩
          · cases h
      · next hbracket =>
          split at h
          · cases h
          · next c tail hcs =>
              split at h
              · next hc =>
                  refine (ih h).mono fun rest hrest => ⟨_, ?_, hrest⟩
                  rw [Fills, if_neg hbracket]
                  exact ⟨[], .noMember (by rw [hcs, hc])⟩
              split at h
              · next hc =>
                  obtain ⟨behind', hname, ⟨⟩⟩ := map_eq_ok_iff.mp h
                  obtain ⟨key, named, hkey, hcolon⟩ := of_skipName hname
                  have comma : Continues false cs tail := by rw [hc] at hcs; exact hcs
                  refine resumes_cons fun tree between inside rest hvalue hfills hcloses => ?_
                  exact ⟨inside, fills_member hbracket comma hkey hcolon hvalue hfills, hcloses⟩
              · cases h

/-- A container is opened, and closed again if it is empty. -/
theorem resumes_of_openContainer {bracket : Char} {opened cs opened' behind : List Char}
    (h : openContainer bracket opened cs = .ok (opened', behind)) :
    Resumes opened' behind
      (fun rest => ∃ between, Fills bracket true cs between ∧ Closes opened between rest) := by
  unfold openContainer at h
  split at h
  · next hbracket =>
      subst hbracket
      split at h
      · cases h
      · next hcs =>
          refine (resumes_of_closeContainers h).mono fun rest hrest => ?_
          exact ⟨_, ⟨[], .noItem hcs⟩, hrest⟩
      · cases h
        refine resumes_cons fun tree between inside rest hvalue hfills hcloses => ?_
        exact ⟨inside, fills_item rfl hvalue.of_skipSpace hfills, hcloses⟩
  · next hbracket =>
      split at h
      · cases h
      · next c tail hcs =>
          split at h
          · next hc =>
              refine (resumes_of_closeContainers h).mono fun rest hrest => ⟨_, ?_, hrest⟩
              rw [Fills, if_neg hbracket]
              exact ⟨[], .noMember (by rw [hcs, hc])⟩
          · rw [← hcs] at h
            obtain ⟨behind', hname, ⟨⟩⟩ := map_eq_ok_iff.mp h
            obtain ⟨key, named, hkey, hcolon⟩ := of_skipName hname
            rw [BeginsString, skipSpace_skipSpace] at hkey
            refine resumes_cons fun tree between inside rest hvalue hfills hcloses => ?_
            exact ⟨inside, fills_member hbracket rfl hkey hcolon hvalue hfills, hcloses⟩

theorem of_skipValueInside {bound opened cs rest : List Char}
    (h : skipValueInside bound opened cs = .ok rest) :
    ∃ tree between, Begins cs (.value tree) between ∧ Closes opened between rest := by
  induction bound generalizing opened cs with
  | nil => cases h
  | cons b bound ih =>
      rw [skipValueInside] at h
      obtain ⟨⟨bracket?, behind⟩, hhead, h⟩ := bind_eq_ok_iff.mp h
      have hgoal {goal : List Char → Prop} {opened' behind' : List Char}
          (hresumes : Resumes opened' behind' goal)
          (hrest : (if opened'.isEmpty then .ok behind'
            else skipValueInside bound opened' behind') = Except.ok rest) : goal rest := by
        refine hresumes rest ?_
        split at hrest
        · next hempty =>
            cases hrest
            exact Or.inl ⟨List.isEmpty_iff.mp hempty, rfl⟩
        · next hopen =>
            obtain ⟨tree, between, hvalue, hcloses⟩ := ih hrest
            refine Or.inr ⟨tree, between, hvalue, ?_, hcloses⟩
            rintro rfl
            exact hopen rfl
      cases bracket? with
      | none =>
          obtain ⟨tree, hvalue⟩ := of_skipHead hhead
          obtain ⟨⟨opened', behind'⟩, hclose, hrest⟩ := bind_eq_ok_iff.mp h
          exact ⟨tree, behind, hvalue, hgoal (resumes_of_closeContainers hclose) hrest⟩
      | some bracket =>
          obtain ⟨hkind, hcs⟩ := of_skipHead hhead
          obtain ⟨⟨opened', behind'⟩, hopen, hrest⟩ := bind_eq_ok_iff.mp h
          obtain ⟨between, hfills, hcloses⟩ := hgoal (resumes_of_openContainer hopen) hrest
          rcases hkind with rfl | rfl
          · obtain ⟨trees, hitems⟩ := hfills
            exact ⟨.array trees, between, .array hcs hitems, hcloses⟩
          · obtain ⟨entries, hmembers⟩ := hfills
            exact ⟨.object entries, between, .object hcs hmembers, hcloses⟩

/-- **What is passed over is a value.** -/
theorem of_skipValue {cs rest : List Char} (h : skipValue cs = .ok rest) :
    ∃ tree, Begins cs (.value tree) rest := by
  obtain ⟨tree, between, hvalue, hcloses⟩ := of_skipValueInside h
  have hbetween : between = rest := hcloses
  exact ⟨tree, hbetween ▸ hvalue⟩

end Posting.Json
