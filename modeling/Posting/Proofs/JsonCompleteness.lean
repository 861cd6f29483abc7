import Posting.Proofs.JsonScanning

/-! # What is written is scanned

Where a text is written as the grammar has it, the scanners take it off: the converse of what they
accept.

* `scanString_marks` and `skipString_marks`: a string is read as what its marks stand for, and is
  passed over whatever they are.
* `scanHead_of_integer` and `isInteger_of_scanHead`: the integers that are read are those that are
  written without superfluous characters.
* `skipValue_of_begins`: every value is passed over, of any depth, and every number, of any size. -/

namespace Posting.Json

open Text

/-! ### Strings -/

theorem scanHex_digits {digits : List Char}
    (h : digits.length = 4 ∧ ∀ d ∈ digits, (hexValue? d).isSome = true) (rest : List Char) :
    scanHex (digits ++ rest) = .ok (hexNumber digits, rest) := by
  obtain ⟨hlength, hvalues⟩ := h
  obtain ⟨a, b, c, d, rfl⟩ : ∃ a b c d, digits = [a, b, c, d] := by
    match digits, hlength with
    | [a, b, c, d], _ => exact ⟨a, b, c, d, rfl⟩
  simp only [List.forall_mem_cons, Option.isSome_iff_exists] at hvalues
  obtain ⟨⟨va, ha⟩, ⟨vb, hb⟩, ⟨vc, hc⟩, ⟨vd, hd⟩, -⟩ := hvalues
  have hbytes : hasBytes 4 ([a, b, c, d] ++ rest) = true := by
    have := a.utf8Size_pos
    have := b.utf8Size_pos
    have := c.utf8Size_pos
    have := d.utf8Size_pos
    rw [hasBytes, decide_eq_true_eq]
    simp only [List.cons_append, List.take_succ_cons, List.take_zero, List.foldr_cons,
      List.foldr_nil]
    omega
  have hmapM : (([a, b, c, d] ++ rest).take 4).mapM hexValue? = some [va, vb, vc, vd] := by
    simp [ha, hb, hc, hd]
  unfold scanHex
  rw [hbytes, hmapM]
  simp [hexNumber, ha, hb, hc, hd]

theorem scanEscape_letter {c : Char} (known : (escaped? c).isSome = true) (rest : List Char) :
    scanEscape (c :: rest) = .ok ((escaped? c).get known, rest) := by
  obtain ⟨e, he⟩ := Option.isSome_iff_exists.mp known
  have hu := Mark.letter_ne_u known
  unfold scanEscape
  split
  · rename_i h
    cases h
  · rename_i h
    exact absurd (List.cons.inj h).1 hu
  · rename_i h
    obtain ⟨rfl, rfl⟩ := List.cons.inj h
    simp only [he, Option.get_some]

theorem scanEscape_unit {digits : List Char}
    (h : digits.length = 4 ∧ ∀ d ∈ digits, (hexValue? d).isSome = true)
    (hsecond : ¬ IsSecondHalf (hexNumber digits)) (hfirst : ¬ IsFirstHalf (hexNumber digits))
    (rest : List Char) :
    scanEscape ('u' :: (digits ++ rest)) = .ok (Char.ofNat (hexNumber digits), rest) := by
  rw [scanEscape, scanHex_digits h, ok_bind]
  simp only
  rw [if_neg hsecond, if_neg hfirst]

theorem scanEscape_pair {digits digits' : List Char}
    (h : digits.length = 4 ∧ ∀ d ∈ digits, (hexValue? d).isSome = true)
    (h' : digits'.length = 4 ∧ ∀ d ∈ digits', (hexValue? d).isSome = true)
    (hfirst : IsFirstHalf (hexNumber digits)) (hsecond : IsSecondHalf (hexNumber digits'))
    (rest : List Char) :
    scanEscape ('u' :: (digits ++ '\\' :: 'u' :: (digits' ++ rest))) =
      .ok (pairedChar (hexNumber digits) (hexNumber digits'), rest) := by
  have hnot : ¬ IsSecondHalf (hexNumber digits) := fun h => by
    have := h.1
    have := hfirst.2
    omega
  rw [scanEscape, scanHex_digits h, ok_bind]
  simp only
  rw [if_neg hnot, if_pos hfirst, scanSecondHalf, scanHex_digits h', ok_bind]
  exact if_pos hsecond

theorem scanCharacters_escaped {cs rest : List Char} {e : Char}
    (h : scanEscape cs = .ok (e, rest)) (b : Char) (bound done : List Char) :
    scanCharacters (b :: bound) done ('\\' :: cs) = scanCharacters bound (e :: done) rest := by
  rw [scanCharacters, if_neg (by decide), if_pos rfl, h]

theorem scanCharacters_marks {marks : List Mark} {more : List Char} (h : chars? marks = some more)
    {bound : List Char} (hbound : (writtenMarks marks).length < bound.length)
    (done rest : List Char) :
    scanCharacters bound done (writtenMarks marks ++ '"' :: rest) =
      .ok (String.ofList (done.reverse ++ more), rest) := by
  -- one step takes a character of the bound, and a mark has at least one
  induction marks using chars?.induct generalizing bound done more with
  | case1 =>
      obtain ⟨b, bound, rfl⟩ := List.exists_cons_of_length_pos (Nat.zero_lt_of_lt hbound)
      cases h
      simp [writtenMarks, scanCharacters]
  | case2 c allowed marks ih =>
      obtain ⟨b, bound, rfl⟩ := List.exists_cons_of_length_pos (Nat.zero_lt_of_lt hbound)
      rw [chars?, Option.map_eq_some_iff] at h
      obtain ⟨others, hothers, rfl⟩ := h
      rw [writtenMarks_cons, Mark.text, List.singleton_append, List.length_cons,
        List.length_cons] at hbound
      rw [writtenMarks_cons, Mark.text, List.singleton_append, List.cons_append, scanCharacters,
        if_neg allowed.1, if_neg allowed.2.1, if_neg allowed.2.2,
        ih hothers (Nat.lt_of_succ_lt_succ hbound), List.reverse_cons, List.append_assoc,
        List.singleton_append]
  | case3 c known marks ih =>
      obtain ⟨b, bound, rfl⟩ := List.exists_cons_of_length_pos (Nat.zero_lt_of_lt hbound)
      rw [chars?, Option.map_eq_some_iff] at h
      obtain ⟨others, hothers, rfl⟩ := h
      simp only [writtenMarks_cons, Mark.text, List.length_append, List.length_cons] at hbound
      rw [writtenMarks_cons, Mark.text]
      simp only [List.cons_append, List.nil_append]
      rw [scanCharacters_escaped (scanEscape_letter known _), ih hothers (by omega),
        List.reverse_cons, List.append_assoc, List.singleton_append]
  | case4 digits hexadecimal marks hsecond =>
      rw [chars?.eq_def] at h
      simp only [if_pos hsecond] at h
      cases h
  | case5 digits hexadecimal hnot hfirst digits' hexadecimal' marks hsecond ih =>
      obtain ⟨b, bound, rfl⟩ := List.exists_cons_of_length_pos (Nat.zero_lt_of_lt hbound)
      rw [chars?_pair hfirst hsecond, Option.map_eq_some_iff] at h
      obtain ⟨others, hothers, rfl⟩ := h
      simp only [writtenMarks_cons, Mark.text, List.length_append, List.length_cons] at hbound
      rw [writtenMarks_cons, writtenMarks_cons, Mark.text, Mark.text]
      simp only [List.cons_append, List.append_assoc]
      rw [scanCharacters_escaped (scanEscape_pair hexadecimal hexadecimal' hfirst hsecond _),
        ih hothers (by omega), List.reverse_cons, List.append_assoc, List.singleton_append]
  | case6 digits hexadecimal hnot hfirst digits' hexadecimal' marks hsecond =>
      rw [chars?.eq_def] at h
      simp only [if_neg hnot, if_pos hfirst, if_neg hsecond] at h
      cases h
  | case7 digits hexadecimal marks hnot hfirst hother =>
      rw [chars?.eq_def] at h
      simp only [if_neg hnot, if_pos hfirst] at h
      cases h
  | case8 digits hexadecimal marks hsecond hfirst ih =>
      obtain ⟨b, bound, rfl⟩ := List.exists_cons_of_length_pos (Nat.zero_lt_of_lt hbound)
      rw [chars?_unit hsecond hfirst, Option.map_eq_some_iff] at h
      obtain ⟨others, hothers, rfl⟩ := h
      simp only [writtenMarks_cons, Mark.text, List.length_append, List.length_cons] at hbound
      rw [writtenMarks_cons, Mark.text]
      simp only [List.cons_append, List.append_assoc]
      rw [scanCharacters_escaped (scanEscape_unit hexadecimal hsecond hfirst _),
        ih hothers (by omega), List.reverse_cons, List.append_assoc, List.singleton_append]

theorem scanString_marks {marks : List Mark} {s : String} (h : text? marks = some s)
    (rest : List Char) : scanString (writtenMarks marks ++ '"' :: rest) = .ok (s, rest) := by
  rw [text?, Option.map_eq_some_iff] at h
  obtain ⟨more, hmore, rfl⟩ := h
  unfold scanString
  rw [scanCharacters_marks hmore, List.reverse_nil, List.nil_append]
  rw [List.length_append, List.length_cons]
  omega

theorem skipCharacters_marks {marks : List Mark} {bound : List Char}
    (hbound : (writtenMarks marks).length < bound.length) (rest : List Char) :
    skipCharacters bound (writtenMarks marks ++ '"' :: rest) = .ok rest := by
  induction marks generalizing bound with
  | nil =>
      obtain ⟨b, bound, rfl⟩ := List.exists_cons_of_length_pos (Nat.zero_lt_of_lt hbound)
      rfl
  | cons mark marks ih =>
      obtain ⟨b, bound, rfl⟩ := List.exists_cons_of_length_pos (Nat.zero_lt_of_lt hbound)
      cases mark with
      | plain c allowed =>
          simp only [writtenMarks_cons, Mark.text, List.length_append, List.length_cons] at hbound
          rw [writtenMarks_cons, Mark.text, List.singleton_append, List.cons_append,
            skipCharacters.eq_def]
          simp only
          rw [if_neg allowed.1, if_neg allowed.2.1, if_neg allowed.2.2]
          exact ih (by omega)
      | letter c known =>
          simp only [writtenMarks_cons, Mark.text, List.length_append, List.length_cons] at hbound
          rw [writtenMarks_cons, Mark.text, skipCharacters.eq_def]
          simp only [List.cons_append, List.nil_append, if_true]
          rw [if_neg (by decide)]
          split
          · rename_i h
            cases h
          · rename_i h
            exact absurd (List.cons.inj h).1 (Mark.letter_ne_u known)
          · rename_i h
            obtain ⟨rfl, rfl⟩ := List.cons.inj h
            rw [if_pos known]
            exact ih (by omega)
      | unit digits hexadecimal =>
          simp only [writtenMarks_cons, Mark.text, List.length_append, List.length_cons] at hbound
          rw [writtenMarks_cons, Mark.text, skipCharacters.eq_def]
          simp only [List.cons_append, List.append_assoc, if_true]
          rw [if_neg (by decide), scanHex_digits hexadecimal]
          exact ih (by omega)

theorem skipString_marks (marks : List Mark) (rest : List Char) :
    skipString (writtenMarks marks ++ '"' :: rest) = .ok rest := by
  unfold skipString
  rw [skipCharacters_marks]
  rw [List.length_append, List.length_cons]
  omega

/-! ### Numbers that nobody asks for -/

theorem Exponent.skipExponent_text (e : Exponent) {rest : List Char}
    (hrest : startsWithDigit rest = false) :
    skipExponent (e.sign ++ (e.digits ++ rest)) = .ok rest := by
  have hstarts := startsWithDigit_append e.allDigits e.digits_ne rest
  have hpassed : (e.digits ++ rest).dropWhile Char.isDigit = rest :=
    dropWhile_digits e.allDigits (head?_not_digit hrest)
  unfold skipExponent
  rcases e.sign_eq with h | h | h <;> rw [h]
  · obtain ⟨c, tail, hc, hdigits⟩ := e.allDigits.exists_cons e.digits_ne
    rw [List.nil_append]
    split
    · rename_i hplus
      rw [hdigits] at hplus
      exact absurd (List.cons.inj hplus).1 (ne_of_isDigit hc rfl)
    · rename_i hminus
      rw [hdigits] at hminus
      exact absurd (List.cons.inj hminus).1 (ne_of_isDigit hc rfl)
    · rw [if_pos hstarts, hpassed]
  · simp only [List.singleton_append]
    rw [if_pos hstarts, hpassed]
  · simp only [List.singleton_append]
    rw [if_pos hstarts, hpassed]

namespace Literal

variable {l : Literal} {rest : List Char}

theorem skip_exponentText (l : Literal) (hrest : EndsNumber rest) :
    (if startsWithExponent (l.exponentText ++ rest) then skipExponent (l.exponentText ++ rest).tail
      else .ok (l.exponentText ++ rest)) = Except.ok (ε := Error) rest := by
  unfold exponentText
  cases l.exponent with
  | none =>
      rw [Option.elim_none, List.nil_append, hrest.startsWithExponent, if_neg Bool.false_ne_true]
  | some e =>
      rw [Option.elim_some, e.startsWithExponent_text, if_pos rfl, Exponent.text, List.cons_append,
        List.tail_cons, List.append_assoc, e.skipExponent_text hrest.startsWithDigit]

theorem skipNumber_text (l : Literal) (hrest : EndsNumber rest) :
    skipNumber (l.whole ++ (l.placesText ++ (l.exponentText ++ rest))) = .ok rest := by
  have hbehind := head?_not_digit (l.startsWithDigit_placesText hrest)
  have hwhole : ¬ (l.whole.isEmpty = true ∨ (l.whole.head? = some '0' ∧ 1 < l.whole.length)) := by
    rw [List.isEmpty_iff, not_or, not_and]
    refine ⟨l.whole_ne, fun hzero => ?_⟩
    rw [l.whole_zero hzero]
    exact Nat.lt_irrefl 1
  unfold skipNumber
  simp only [takeWhile_digits l.allDigits_whole hbehind, dropWhile_digits l.allDigits_whole hbehind]
  rw [if_neg hwhole]
  unfold placesText
  by_cases hplaces : l.places = []
  · rw [if_pos hplaces, List.nil_append]
    split
    · rename_i heq
      exact absurd (congrArg List.head? heq) (l.head?_exponentText hrest)
    · exact l.skip_exponentText hrest
  · rw [if_neg hplaces, List.cons_append]
    simp only [startsWithDigit_append l.allDigits_places hplaces,
      dropWhile_digits l.allDigits_places (head?_not_digit (l.startsWithDigit_exponentText hrest))]
    exact l.skip_exponentText hrest

theorem text_of_isInteger (h : l.IsInteger) : l.text = l.signText ++ l.whole := by
  rw [text, placesText, if_pos h.1, exponentText, h.2, Option.elim_none, List.append_nil,
    List.append_nil]

end Literal

/-! ### Integers -/

/-- An integer as it is written, without superfluous characters. -/
def Tree.IsInteger (tree : Tree) (k : Int) : Prop :=
  ∃ l, tree = .number l ∧ l.text = Text.integer k

/-- Zero behind a minus is no integer. -/
theorem finishNumber_minus_zero {cs rest : List Char} {k : Int} :
    finishNumber true 0 cs ≠ .ok (.integer k, rest) := by
  intro h
  unfold finishNumber at h
  split at h
  · obtain ⟨x, ⟨⟩⟩ := float_of_scanPlaces h
  split at h
  · obtain ⟨x, ⟨⟩⟩ := float_of_scanExponent h
  · cases h

/-- **An integer that is scanned is written without superfluous characters.** -/
theorem isInteger_of_scanHead {cs rest : List Char} {k : Int}
    (h : scanHead cs = .ok (.number (.integer k), rest)) :
    ∃ tree, Begins cs (.value tree) rest ∧ tree.IsInteger k := by
  cases headed_of_scanHead h with
  | @scalar _ tree _ tells begins =>
      refine ⟨tree, begins, ?_⟩
      cases tells with
      | @integer l _ written value =>
          have hdigits := digits_readDigits l.allDigits_whole l.whole_ne l.whole_zero
          have htext := Literal.text_of_isInteger written
          rw [Literal.value_of_isInteger written] at value
          refine ⟨l, rfl, ?_⟩
          rw [htext, Literal.signText]
          cases hnegative : l.negative with
          | false =>
              rw [hnegative, if_neg Bool.false_ne_true] at value
              have hk : (readDigits l.whole : Int) = k := by exact_mod_cast value
              rw [if_neg Bool.false_ne_true, List.nil_append, Text.integer, if_neg (by omega), ← hk,
                Int.natAbs_natCast, hdigits]
          | true =>
              rw [hnegative, if_pos rfl] at value
              have hk : -(readDigits l.whole : Int) = k := by exact_mod_cast value
              by_cases hzero : readDigits l.whole = 0
              · -- the text would start with a minus and a zero
                rw [hzero] at hdigits
                cases begins with
                | number word =>
                    rw [htext, Literal.signText, hnegative, ← hdigits] at word
                    unfold scanHead at h
                    rw [word] at h
                    obtain ⟨⟨n, tail⟩, hnumber, ⟨⟩⟩ := map_eq_ok_iff.mp h
                    change scanNumber true ('0' :: rest) = _ at hnumber
                    rw [scanNumber, if_pos rfl] at hnumber
                    split at hnumber
                    · cases hnumber
                    · exact absurd hnumber finishNumber_minus_zero
              · rw [if_pos rfl, List.singleton_append, Text.integer, if_pos (by omega), ← hk,
                  Int.natAbs_neg, Int.natAbs_natCast, hdigits]

/-! ### Beginnings of values -/

theorem scanHead_skipSpace (cs : List Char) : scanHead (skipSpace cs) = scanHead cs := by
  unfold scanHead
  rw [skipSpace_skipSpace]

section heads

variable {cs rest : List Char}

theorem scanHead_of_null (h : Begins cs (.value .null) rest) : scanHead cs = .ok (.null, rest) := by
  cases h with
  | null word => rw [← scanHead_skipSpace, word, scanHead_null]

theorem scanHead_of_string {marks : List Mark} {s : String}
    (h : Begins cs (.value (.string marks)) rest) (htext : text? marks = some s) :
    scanHead cs = .ok (.string s, rest) := by
  cases h with
  | string quoted =>
      unfold scanHead
      rw [quoted]
      simp only [scanString_marks htext, ok_map]

theorem scanHead_of_integer {tree : Tree} {k : Int} (h : Begins cs (.value tree) rest)
    (hends : EndsNumber rest) (hk : tree.IsInteger k) (hlow : -0x8000000000000000 ≤ k)
    (hhigh : k < 0x8000000000000000) : scanHead cs = .ok (.number (.integer k), rest) := by
  obtain ⟨l, rfl, htext⟩ := hk
  cases h with
  | number word => rw [← scanHead_skipSpace, word, htext, scanHead_integer hlow hhigh hends]

theorem scanHead_of_array (h : skipSpace cs = '[' :: rest) : scanHead cs = .ok (.array, rest) := by
  unfold scanHead
  rw [h]
  rfl

theorem scanHead_of_object (h : skipSpace cs = opening :: rest) :
    scanHead cs = .ok (.object, rest) := by
  unfold scanHead
  rw [h]
  rfl

end heads

/-! ### Separators -/

section separators

variable {first : Bool} {cs more rest : List Char}

theorem closeArray_of_bracket (h : skipSpace cs = ']' :: rest) : closeArray cs = .ok rest := by
  unfold closeArray
  rw [h]
  rfl

theorem scanColon_of_colon (h : skipSpace cs = ':' :: rest) : scanColon cs = .ok rest := by
  unfold scanColon
  rw [h]
  rfl

theorem nextItem_of_bracket (h : skipSpace cs = ']' :: rest) :
    nextItem first cs = .ok (false, ']' :: rest) := by
  unfold nextItem
  rw [h]
  rfl

theorem exists_space (cs : List Char) : ∃ space, AllSpace space ∧ cs = space ++ skipSpace cs :=
  ⟨cs.takeWhile isSpace, List.all_eq_true.mp List.all_takeWhile,
    List.takeWhile_append_dropWhile.symm⟩

theorem Begins.startsValue {tree : Tree} (h : Begins cs (.value tree) rest) :
    StartsValue (skipSpace cs) := by
  obtain ⟨c, tail, hcs, -, hc⟩ := h.kind_of
  have hspace := List.head?_dropWhile_not isSpace cs
  rw [← skipSpace, hcs] at hspace
  exact ⟨c, tail, hcs, hspace, hc⟩

theorem nextItem_of_item {tree : Tree} (comma : Continues first cs more)
    (value : Begins more (.value tree) rest) : nextItem first cs = .ok (true, skipSpace more) := by
  obtain ⟨space, hspace, hmore⟩ := exists_space more
  cases first with
  | true =>
      obtain rfl : more = cs := comma
      have hfirst := nextItem_first hspace value.startsValue
      rwa [← hmore] at hfirst
  | false =>
      have hcomma : skipSpace cs = ',' :: more := comma
      have hnext := nextItem_comma hspace value.startsValue
      rw [← hmore, ← hcomma] at hnext
      unfold nextItem at hnext ⊢
      rwa [skipSpace_skipSpace] at hnext

theorem nextName_of_bracket (h : skipSpace cs = closing :: rest) :
    nextName first cs = .ok (none, rest) := by
  unfold nextName
  rw [h]
  rfl

theorem nextName_of_member {key : List Mark} {name : String} (comma : Continues first cs more)
    (quoted : BeginsString more key rest) (htext : text? key = some name) :
    nextName first cs = .ok (some name, rest) := by
  have hquote : '"' ≠ closing := by decide
  unfold nextName
  cases first with
  | true =>
      obtain rfl : more = cs := comma
      rw [quoted]
      simp only [hquote, if_false, if_true]
      rw [scanString_marks htext, ok_map]
  | false =>
      have hcomma : skipSpace cs = ',' :: more := comma
      rw [hcomma]
      simp only [if_true]
      rw [if_neg (by decide), if_neg Bool.false_ne_true, quoted]
      simp only [if_true]
      rw [scanString_marks htext, ok_map]

theorem skipName_of_member {key : List Mark} {named : List Char}
    (quoted : BeginsString cs key named) (colon : skipSpace named = ':' :: rest) : skipName cs = .ok rest := by
  unfold skipName
  rw [quoted]
  simp only [if_true]
  rw [skipString_marks, ok_bind, scanColon_of_colon colon]

end separators

/-! ### Values that nobody asks for -/

theorem length_skipSpace_le (cs : List Char) : (skipSpace cs).length ≤ cs.length :=
  (List.dropWhile_suffix _).length_le

theorem length_lt_of_skipSpace {cs rest : List Char} {c : Char} (h : skipSpace cs = c :: rest) :
    rest.length < cs.length := by
  have hle := length_skipSpace_le cs
  rw [h, List.length_cons] at hle
  exact hle

theorem Continues.length_le {first : Bool} {cs more : List Char} (h : Continues first cs more) :
    more.length ≤ cs.length := by
  cases first with
  | true => exact le_of_eq (congrArg List.length h)
  | false => exact (length_lt_of_skipSpace h).le

theorem BeginsString.length_lt {cs rest : List Char} {marks : List Mark}
    (h : BeginsString cs marks rest) : rest.length < cs.length := by
  have hlt := length_lt_of_skipSpace h
  rw [List.length_append, List.length_cons] at hlt
  omega

theorem Begins.length_lt {cs rest : List Char} {phrase : Phrase} (h : Begins cs phrase rest) :
    rest.length < cs.length := by
  have hfront {cs front rest : List Char} (hfront : front ≠ []) (h : skipSpace cs = front ++ rest) :
      rest.length < cs.length := by
    have hle := length_skipSpace_le cs
    have hpos := List.length_pos_iff.mpr hfront
    rw [h, List.length_append] at hle
    omega
  induction h with
  | null word => exact hfront (by decide) word
  | bool b word => cases b <;> exact hfront (by decide) word
  | @number cs rest l digits =>
      refine hfront ?_ digits
      rw [Literal.text]
      simp [l.whole_ne]
  | string quoted => exact quoted.length_lt
  | array bracket _ ih => exact ih.trans (length_lt_of_skipSpace bracket)
  | object bracket _ ih => exact ih.trans (length_lt_of_skipSpace bracket)
  | noItem bracket => exact length_lt_of_skipSpace bracket
  | item comma _ _ ihvalue ihitems => exact (ihitems.trans ihvalue).trans_le comma.length_le
  | noMember bracket => exact length_lt_of_skipSpace bracket
  | member comma name colon _ _ ihvalue ihmembers =>
      have hbehind := (length_lt_of_skipSpace colon).trans name.length_lt
      exact ((ihmembers.trans ihvalue).trans hbehind).trans_le comma.length_le

theorem Begins.skipSpace {cs rest : List Char} {tree : Tree} (h : Begins cs (.value tree) rest) :
    Begins (skipSpace cs) (.value tree) rest := by
  cases h with
  | null word => exact .null (by rwa [skipSpace_skipSpace])
  | bool b word => exact .bool b (by rwa [skipSpace_skipSpace])
  | number digits => exact .number (by rwa [skipSpace_skipSpace])
  | string quoted => exact .string (by rwa [BeginsString, skipSpace_skipSpace])
  | array bracket items => exact .array (by rwa [skipSpace_skipSpace]) items
  | object bracket members => exact .object (by rwa [skipSpace_skipSpace]) members

/-- A value is passed over together with the containers that are open around it, up to `final`. -/
def Skips (opened cs final : List Char) : Prop :=
  ∀ bound : List Char, (skipSpace cs).length ≤ bound.length →
    skipValueInside bound opened cs = .ok final

/-- What is left from `cs` on, and the containers that stay open there, are passed over up to
`final`. -/
def Resumed (cs final : List Char) (result : Except Error (List Char × List Char)) : Prop :=
  ∃ opened behind, result = .ok (opened, behind) ∧ behind.length ≤ cs.length ∧
    (if opened.isEmpty then behind = final else Skips opened behind final)

theorem Skips.of_skipSpace {opened cs final : List Char} (h : Skips opened cs final) :
    Skips opened (Json.skipSpace cs) final := by
  intro bound hbound
  rw [skipSpace_skipSpace] at hbound
  have hskip := h bound hbound
  cases bound with
  | nil => cases hskip
  | cons b bound =>
      rw [skipValueInside, skipHead] at hskip ⊢
      rwa [skipSpace_skipSpace]

theorem Skips.resumed {bracket : Char} {opened cs behind final : List Char}
    (h : Skips (bracket :: opened) behind final) (hle : behind.length ≤ cs.length) :
    Resumed cs final (.ok (bracket :: opened, behind)) :=
  ⟨_, _, rfl, hle, h⟩

theorem Resumed.mono {cs cs' final : List Char} {result : Except Error (List Char × List Char)}
    (h : Resumed cs final result) (hle : cs.length ≤ cs'.length) : Resumed cs' final result := by
  obtain ⟨opened, behind, hresult, hbehind, hgoal⟩ := h
  exact ⟨opened, behind, hresult, hbehind.trans hle, hgoal⟩

/-- A value is passed over once its beginning is. -/
theorem skips_of_skipHead (bracket? : Option Char) {opened cs rest final : List Char}
    (hhead : skipHead cs = .ok (bracket?, rest)) (hlt : rest.length < (skipSpace cs).length)
    (h : Resumed rest final (bracket?.elim (closeContainers opened rest)
      (fun bracket => openContainer bracket opened rest))) :
    Skips opened cs final := by
  intro bound hbound
  obtain ⟨b, bound, rfl⟩ := List.exists_cons_of_length_pos (show 0 < bound.length by omega)
  obtain ⟨opened', behind, hresult, hle, hgoal⟩ := h
  have hstep : skipValueInside (b :: bound) opened cs =
      if opened'.isEmpty then .ok behind else skipValueInside bound opened' behind := by
    rw [skipValueInside, hhead, ok_bind]
    cases bracket? with
    | none =>
        change closeContainers opened rest = _ at hresult
        simp only [hresult, ok_bind]
    | some bracket =>
        change openContainer bracket opened rest = _ at hresult
        simp only [hresult, ok_bind]
  rw [hstep]
  split at hgoal
  · next hempty => rw [if_pos hempty, hgoal]
  · next hopen =>
      rw [if_neg hopen]
      refine hgoal bound ?_
      have hspace := length_skipSpace_le behind
      rw [List.length_cons] at hbound
      omega

/-- What is done with the rest of a container. -/
def resume (bracket : Char) (first : Bool) (opened cs : List Char) :
    Except Error (List Char × List Char) :=
  if first then openContainer bracket opened cs else closeContainers (bracket :: opened) cs

/-- A phrase is passed over if what follows it is. -/
def Phrase.Passes (cs rest : List Char) : Phrase → Prop
  | .value _ => ∀ opened final, EndsNumber rest →
      Resumed rest final (closeContainers opened rest) → Skips opened cs final
  | .items first _ => ∀ opened final, Resumed rest final (closeContainers opened rest) →
      Resumed cs final (resume '[' first opened cs)
  | .members first _ => ∀ opened final, Resumed rest final (closeContainers opened rest) →
      Resumed cs final (resume opening first opened cs)

theorem skipHead_of_number {cs rest : List Char} {l : Literal}
    (digits : skipSpace cs = l.text ++ rest) (hends : EndsNumber rest) : skipHead cs = .ok (none, rest) := by
  have hskip := l.skipNumber_text hends
  simp only [Literal.text, List.append_assoc, Literal.signText] at digits
  unfold skipHead
  rw [digits]
  cases l.negative with
  | true =>
      simp only [if_true, List.singleton_append]
      rw [hskip, ok_map]
  | false =>
      obtain ⟨c, tail, hc, hwhole⟩ := l.allDigits_whole.exists_cons l.whole_ne
      have hbracket : ¬ (c = '[' ∨ c = Char.ofNat 0x7B) := by
        rintro (h | h)
        · exact ne_of_isDigit hc rfl h
        · exact ne_of_isDigit hc (by decide) h
      rw [hwhole] at hskip ⊢
      rw [if_neg Bool.false_ne_true, List.nil_append, List.cons_append]
      split
      all_goals try
        rename_i heq
        exact absurd (List.cons.inj heq).1 (ne_of_isDigit hc rfl)
      · rename_i heq
        cases heq
      · rename_i heq
        obtain ⟨rfl, rfl⟩ := List.cons.inj heq
        rw [if_neg hbracket, if_pos hc, ← List.cons_append, hskip, ok_map]

theorem skipHead_of_bracket {cs rest : List Char} {bracket : Char}
    (hbracket : bracket = '[' ∨ bracket = opening) (h : skipSpace cs = bracket :: rest) :
    skipHead cs = .ok (some bracket, rest) := by
  unfold skipHead
  rw [h]
  rcases hbracket with rfl | rfl <;> rfl

theorem skipHead_of_null {cs rest : List Char} (word : skipSpace cs = "null".toList ++ rest) :
    skipHead cs = .ok (none, rest) := by
  unfold skipHead
  rw [word]
  rfl

theorem skipHead_of_bool {cs rest : List Char} (b : Bool)
    (word : skipSpace cs = (if b then "true" else "false").toList ++ rest) :
    skipHead cs = .ok (none, rest) := by
  unfold skipHead
  rw [word]
  cases b <;> rfl

theorem skipHead_of_string {cs rest : List Char} {marks : List Mark}
    (quoted : BeginsString cs marks rest) : skipHead cs = .ok (none, rest) := by
  unfold skipHead
  rw [quoted]
  simp only [skipString_marks, ok_map]

section containers

variable {first : Bool} {opened cs more between rest final : List Char} {tree : Tree}

theorem resume_of_items_end (bracket : skipSpace cs = ']' :: rest) :
    resume '[' first opened cs = closeContainers opened rest := by
  cases first with
  | true => rw [resume, if_pos rfl, openContainer, if_pos rfl, bracket]; rfl
  | false => rw [resume, if_neg Bool.false_ne_true, closeContainers, if_pos rfl, bracket]; rfl

theorem resume_of_members_end (bracket : skipSpace cs = closing :: rest) :
    resume opening first opened cs = closeContainers opened rest := by
  have hopening : opening ≠ '[' := by decide
  cases first with
  | true => rw [resume, if_pos rfl, openContainer, if_neg hopening, bracket]; rfl
  | false =>
      rw [resume, if_neg Bool.false_ne_true, closeContainers, if_neg hopening, bracket]
      rfl

/-- An array goes on with the item that comes first or behind a comma. -/
theorem resumed_of_item (comma : Continues first cs more)
    (value : Begins more (.value tree) between) (h : Skips ('[' :: opened) more final) :
    Resumed cs final (resume '[' first opened cs) := by
  cases first with
  | true =>
      obtain rfl : more = cs := comma
      obtain ⟨c, tail, hmore, -, hc⟩ := value.kind_of
      have hopen : openContainer '[' opened more = .ok ('[' :: opened, skipSpace more) := by
        rw [openContainer, if_pos rfl]
        split
        · next heq =>
            rw [hmore] at heq
            cases heq
        · next heq =>
            rw [hmore] at heq
            exact absurd (List.cons.inj heq).1 hc
        · rfl
      rw [resume, if_pos rfl, hopen]
      exact h.of_skipSpace.resumed (length_skipSpace_le more)
  | false =>
      have hcomma : skipSpace cs = ',' :: more := comma
      rw [resume, if_neg Bool.false_ne_true, closeContainers, if_pos rfl, hcomma]
      exact h.resumed comma.length_le

/-- An object goes on with the member that comes first or behind a comma. -/
theorem resumed_of_member {key : List Mark} {named behind : List Char}
    (comma : Continues first cs more) (name : BeginsString more key named)
    (colon : skipSpace named = ':' :: behind) (h : Skips (opening :: opened) behind final) :
    Resumed cs final (resume opening first opened cs) := by
  have hopening : opening ≠ '[' := by decide
  have hle : behind.length ≤ cs.length :=
    ((length_lt_of_skipSpace colon).trans name.length_lt).le.trans comma.length_le
  cases first with
  | true =>
      obtain rfl : more = cs := comma
      have hname : BeginsString (skipSpace more) key named := by
        rwa [BeginsString, skipSpace_skipSpace]
      have hskipName := skipName_of_member hname colon
      rw [name] at hskipName
      rw [resume, if_pos rfl, openContainer, if_neg hopening, name]
      simp only [hskipName, ok_map]
      rw [if_neg (by decide)]
      exact h.resumed hle
  | false =>
      have hcomma : skipSpace cs = ',' :: more := comma
      rw [resume, if_neg Bool.false_ne_true, closeContainers, if_neg hopening, hcomma]
      simp only [if_true, skipName_of_member name colon, ok_map]
      rw [if_neg (by decide)]
      exact h.resumed hle

end containers

/-- **Every phrase is passed over**, whatever containers are open around it. -/
theorem Begins.passes {cs rest : List Char} {phrase : Phrase} (h : Begins cs phrase rest) :
    phrase.Passes cs rest := by
  induction h with
  | null word =>
      intro opened final hends hclose
      exact skips_of_skipHead none (skipHead_of_null word) (Begins.null word).skipSpace.length_lt
        hclose
  | bool b word =>
      intro opened final hends hclose
      exact skips_of_skipHead none (skipHead_of_bool b word)
        (Begins.bool b word).skipSpace.length_lt hclose
  | number digits =>
      intro opened final hends hclose
      exact skips_of_skipHead none (skipHead_of_number digits hends)
        (Begins.number digits).skipSpace.length_lt hclose
  | string quoted =>
      intro opened final hends hclose
      exact skips_of_skipHead none (skipHead_of_string quoted)
        (Begins.string quoted).skipSpace.length_lt hclose
  | array bracket _ ih =>
      intro opened final hends hclose
      refine skips_of_skipHead (some '[') (skipHead_of_bracket (.inl rfl) bracket) ?_
        (ih opened final hclose)
      rw [bracket]
      exact Nat.lt_succ_self _
  | object bracket _ ih =>
      intro opened final hends hclose
      refine skips_of_skipHead (some opening) (skipHead_of_bracket (.inr rfl) bracket) ?_
        (ih opened final hclose)
      rw [bracket]
      exact Nat.lt_succ_self _
  | noItem bracket =>
      intro opened final hclose
      rw [resume_of_items_end bracket]
      exact hclose.mono (length_lt_of_skipSpace bracket).le
  | item comma value items ihvalue ihitems =>
      intro opened final hclose
      exact resumed_of_item comma value
        (ihvalue ('[' :: opened) final items.endsNumber_of_items (ihitems opened final hclose))
  | noMember bracket =>
      intro opened final hclose
      rw [resume_of_members_end bracket]
      exact hclose.mono (length_lt_of_skipSpace bracket).le
  | member comma name colon value members ihvalue ihmembers =>
      intro opened final hclose
      exact resumed_of_member comma name colon
        (ihvalue (opening :: opened) final members.endsNumber_of_members
          (ihmembers opened final hclose))

/-- **Every value is passed over**, unless it is a number that could go on. -/
theorem skipValue_of_begins {cs rest : List Char} {tree : Tree} (h : Begins cs (.value tree) rest)
    (hends : EndsNumber rest) : skipValue cs = .ok rest :=
  h.passes [] rest hends ⟨[], rest, rfl, Nat.le_refl _, rfl⟩ cs (length_skipSpace_le cs)

end Posting.Json
