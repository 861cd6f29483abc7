import Posting.Calendar.DateText
import Posting.Proofs.Digits
import Posting.Proofs.Results
import Posting.Proofs.TextPieces

/-! # Dates read back

`Date.WrittenIn` is the grammar of dates: a year, a month and a day with hyphens between and blanks
around each, and the numbers that their digits denote.

* `Date.read_eq_ok_iff`: a text is read as a date if it is written so, and as no other one.
* `Date.read_text`: every date, of whatever year, is read back from its own text. -/

namespace Posting.Calendar

open Text

/-! ### The grammar -/

/-- A run of decimal digits, and the number it denotes. -/
structure IsNumber (cs : List Char) (n : Nat) : Prop where
  digits : AllDigits cs
  ne_nil : cs ≠ []
  value : Nat.ofDigitChars 10 cs 0 = n

/-- A year has any number of digits behind its sign, and four at most without one. -/
inductive IsYear : List Char → Int → Prop
  | plain {cs : List Char} {n : Nat} (h : IsNumber cs n) (hlength : cs.length ≤ 4) : IsYear cs n
  | plus {cs : List Char} {n : Nat} (h : IsNumber cs n) : IsYear ('+' :: cs) n
  | minus {cs : List Char} {n : Nat} (h : IsNumber cs n) : IsYear ('-' :: cs) (-n)

/-- A month or a day has one digit or two. -/
structure IsPart (cs : List Char) (n : Nat) : Prop extends IsNumber cs n where
  length_le : cs.length ≤ 2

/-- A piece with blanks before and behind it. -/
inductive Spaced (P : List Char → Prop) : List Char → Prop
  | intro {front piece back : List Char} (hfront : Blanks front) (h : P piece)
      (hback : Blanks back) : Spaced P (front ++ (piece ++ back))

/-- A text that writes a date: its year, its month and its day, with hyphens between. -/
def Date.WrittenIn (d : Date) (s : String) : Prop :=
  ∃ year month day, s.toList = year ++ '-' :: (month ++ '-' :: day) ∧
    Spaced (IsYear · d.year) year ∧ Spaced (IsPart · d.month) month ∧
      Spaced (IsPart · d.day) day

theorem IsNumber.readDigits {cs : List Char} {n : Nat} (h : IsNumber cs n) :
    readDigits cs = n := by
  rw [readDigits_eq, h.value]

theorem isNumber_padded {width : Nat} (hwidth : 0 < width) (n : Nat) :
    IsNumber (padded width n) n where
  digits := allDigits_padded width n
  ne_nil := padded_ne_nil hwidth n
  value := by rw [← readDigits_eq, readDigits_padded]

/-! ### Blanks -/

theorem isBlank_of_isDigit {c : Char} (h : c.isDigit = true) : isBlank c = false := by
  have hbounds := Char.isDigit_iff_toNat.mp h
  rw [show '0'.toNat = 48 from rfl, show '9'.toNat = 57 from rfl] at hbounds
  simp only [isBlank, Bool.or_eq_false_iff, Bool.and_eq_false_iff, decide_eq_false_iff_not,
    beq_eq_false_iff_ne]
  omega

theorem isDigit_of_isBlank {c : Char} (h : isBlank c = true) : c.isDigit = false := by
  by_contra hdigit
  rw [isBlank_of_isDigit (Bool.not_eq_false _ ▸ hdigit)] at h
  cases h

theorem skipBlanks_until {blanks rest : List Char} (h : Blanks blanks)
    (hrest : ∀ c ∈ rest.head?, isBlank c = false) : skipBlanks (blanks ++ rest) = rest := by
  rw [skipBlanks_append h, skipBlanks]
  cases rest with
  | nil => rfl
  | cons c tail => simp [hrest c rfl]

theorem IsNumber.head?_not_blank {cs : List Char} {n : Nat} (h : IsNumber cs n)
    (rest : List Char) : ∀ c ∈ (cs ++ rest).head?, isBlank c = false := by
  obtain ⟨c, tail, hc, rfl⟩ := h.digits.exists_cons h.ne_nil
  rintro _ ⟨⟩
  exact isBlank_of_isDigit hc

theorem IsYear.head?_not_blank {cs : List Char} {year : Int} (h : IsYear cs year)
    (rest : List Char) : ∀ c ∈ (cs ++ rest).head?, isBlank c = false := by
  cases h with
  | plain h _ => exact h.head?_not_blank rest
  | plus _ => rintro _ ⟨⟩; decide
  | minus _ => rintro _ ⟨⟩; decide

/-! ### Numbers -/

/-- Digits that are taken off the front of a run are a number, unless they are none. -/
theorem isNumber_front {cs front back rest : List Char} {n : Nat}
    (hfront : front ++ back = cs.takeWhile Char.isDigit)
    (h : (if front.isEmpty then .error .invalid
      else .ok (readDigits front, cs.drop front.length) : Except DateFault (Nat × List Char)) =
        .ok (n, rest)) : IsNumber front n ∧ cs = front ++ rest := by
  have hdigits : AllDigits (front ++ back) := hfront ▸ allDigits_takeWhile cs
  have hcs := cs.takeWhile_append_dropWhile (p := Char.isDigit)
  rw [← hfront, List.append_assoc] at hcs
  split at h
  · cases h
  · next hsome =>
      cases h
      refine ⟨⟨(List.forall_mem_append.mp hdigits).1, ?_, (readDigits_eq front).symm⟩, ?_⟩
      · exact mt List.isEmpty_iff.mpr hsome
      · rw [← hcs, List.drop_left]

theorem of_readNumber {most : Option Nat} {cs rest : List Char} {n : Nat}
    (h : readNumber most cs = .ok (n, rest)) :
    ∃ digits, IsNumber digits n ∧ (∀ count ∈ most, digits.length ≤ count) ∧
      cs = digits ++ rest := by
  unfold readNumber at h
  cases cs with
  | nil => cases h
  | cons c tail =>
      cases most with
      | none =>
          obtain ⟨hnumber, hcs⟩ := isNumber_front (List.append_nil _) h
          exact ⟨_, hnumber, nofun, hcs⟩
      | some count =>
          obtain ⟨hnumber, hcs⟩ := isNumber_front (List.take_append_drop count _) h
          refine ⟨_, hnumber, ?_, hcs⟩
          rintro _ ⟨⟩
          exact List.length_take_le ..

/-- A run of digits that is not too long is read as a whole if no digit follows. -/
theorem readNumber_digits {most : Option Nat} {cs rest : List Char} {n : Nat} (h : IsNumber cs n)
    (hmost : ∀ count ∈ most, cs.length ≤ count) (hrest : ∀ c ∈ rest.head?, c.isDigit = false) :
    readNumber most (cs ++ rest) = .ok (n, rest) := by
  have hrun := takeWhile_digits h.digits hrest
  obtain ⟨c, tail, -, rfl⟩ := h.digits.exists_cons h.ne_nil
  rw [List.cons_append] at hrun ⊢
  cases most with
  | none => simp [readNumber, hrun, h.readDigits]
  | some count =>
      simp [readNumber, hrun, List.take_of_length_le (hmost count rfl), h.readDigits]

/-! ### Parts -/

theorem of_readPart {greatest n : Nat} {cs rest : List Char}
    (h : readPart greatest cs = .ok (n, rest)) : ∃ part, IsPart part n ∧ cs = part ++ rest := by
  unfold readPart at h
  obtain ⟨⟨number, back⟩, hnumber, h⟩ := bind_eq_ok_iff.mp h
  dsimp only at h
  split at h
  · cases h
    obtain ⟨digits, hdigits, hmost, rfl⟩ := of_readNumber hnumber
    exact ⟨digits, ⟨hdigits, hmost 2 rfl⟩, rfl⟩
  · cases h

theorem readPart_part {greatest n : Nat} {cs rest : List Char} (h : IsPart cs n)
    (hbounds : 1 ≤ n ∧ n ≤ greatest) (hrest : ∀ c ∈ rest.head?, c.isDigit = false) :
    readPart greatest (cs ++ rest) = .ok (n, rest) := by
  have hnumber : readNumber (some 2) (cs ++ rest) = .ok (n, rest) := by
    refine readNumber_digits h.toIsNumber ?_ hrest
    rintro _ ⟨⟩
    exact h.length_le
  rw [readPart, hnumber, ok_bind]
  exact if_pos hbounds

/-! ### Years -/

theorem signed_eq_ok_iff (sign : Nat → Int) {most : Option Nat} {cs rest : List Char} {year : Int} :
    ((readNumber most cs).map (fun (n, rest) => (sign n, rest)) >>= fun (year, rest) =>
      if -0x80000000 ≤ year ∧ year < 0x80000000 then .ok (year, rest) else .error .outOfRange) =
        .ok (year, rest) ↔
      ∃ n, readNumber most cs = .ok (n, rest) ∧ sign n = year ∧
        (-0x80000000 ≤ year ∧ year < 0x80000000) := by
  constructor
  · intro h
    obtain ⟨⟨number, back⟩, hnumber, h⟩ := bind_eq_ok_iff.mp h
    obtain ⟨⟨n, _⟩, hread, hsigned⟩ := map_eq_ok_iff.mp hnumber
    cases hsigned
    dsimp only at h
    split at h
    · next hrange =>
        cases h
        exact ⟨n, hread, rfl, hrange⟩
    · cases h
  · rintro ⟨n, hread, rfl, hrange⟩
    rw [hread, ok_map, ok_bind]
    exact if_pos hrange

theorem of_readYear {cs rest : List Char} {year : Int} (h : readYear cs = .ok (year, rest)) :
    ∃ front, IsYear front year ∧ cs = front ++ rest := by
  unfold readYear at h
  dsimp only at h
  split at h
  · obtain ⟨n, hread, rfl, -⟩ := (signed_eq_ok_iff (fun n => -(n : Int))).mp h
    obtain ⟨digits, hdigits, -, rfl⟩ := of_readNumber hread
    exact ⟨_, .minus hdigits, rfl⟩
  · obtain ⟨n, hread, rfl, -⟩ := (signed_eq_ok_iff (fun n => (n : Int))).mp h
    obtain ⟨digits, hdigits, -, rfl⟩ := of_readNumber hread
    exact ⟨_, .plus hdigits, rfl⟩
  · obtain ⟨n, hread, rfl, -⟩ := (signed_eq_ok_iff (fun n => (n : Int))).mp h
    obtain ⟨digits, hdigits, hmost, rfl⟩ := of_readNumber hread
    exact ⟨digits, .plain hdigits (hmost 4 rfl), rfl⟩

theorem readYear_year {cs rest : List Char} {year : Int} (h : IsYear cs year)
    (hrange : -0x80000000 ≤ year ∧ year < 0x80000000)
    (hrest : ∀ c ∈ rest.head?, c.isDigit = false) : readYear (cs ++ rest) = .ok (year, rest) := by
  unfold readYear
  cases h with
  | @plain _ n h hlength =>
      have hfour : readNumber (some 4) (cs ++ rest) = .ok (n, rest) := by
        refine readNumber_digits h ?_ hrest
        rintro _ ⟨⟩
        exact hlength
      obtain ⟨c, tail, hc, rfl⟩ := h.digits.exists_cons h.ne_nil
      -- the text starts with a digit, so that it is read as a year without a sign
      split
      · next heq => exact absurd (List.cons.inj heq).1 (ne_of_isDigit hc rfl)
      · next heq => exact absurd (List.cons.inj heq).1 (ne_of_isDigit hc rfl)
      · exact (signed_eq_ok_iff (fun n => (n : Int))).mpr ⟨n, hfour, rfl, hrange⟩
  | @plus cs n h =>
      have hany : readNumber none (cs ++ rest) = .ok (n, rest) := readNumber_digits h nofun hrest
      exact (signed_eq_ok_iff (fun n => (n : Int))).mpr ⟨n, hany, rfl, hrange⟩
  | @minus cs n h =>
      have hany : readNumber none (cs ++ rest) = .ok (n, rest) := readNumber_digits h nofun hrest
      exact (signed_eq_ok_iff (fun n => -(n : Int))).mpr ⟨n, hany, rfl, hrange⟩

/-! ### Dates -/

theorem daysInMonth_le (year : Int) (month : Nat) : daysInMonth year month ≤ 31 := by
  unfold daysInMonth
  split
  · split <;> decide
  all_goals decide

theorem Date.day_pos (d : Date) : 1 ≤ d.day :=
  d.isDate.2.2.1

theorem Date.day_le (d : Date) : d.day ≤ 31 :=
  d.isDate.2.2.2.trans (daysInMonth_le d.year d.month)

theorem of_skipHyphen {cs rest : List Char} (h : skipHyphen cs = .ok rest) : cs = '-' :: rest := by
  cases cs with
  | nil => cases h
  | cons c tail =>
      rw [skipHyphen] at h
      split at h
      · next hc =>
          cases h
          rw [hc]
      · cases h

theorem of?_eq_some_iff {year : Int} {month day : Nat} {d : Date} :
    Date.of? year month day = some d ↔ year = d.year ∧ month = d.month ∧ day = d.day := by
  constructor
  · intro h
    unfold Date.of? at h
    split at h
    · cases h
      exact ⟨rfl, rfl, rfl⟩
    · cases h
  · rintro ⟨rfl, rfl, rfl⟩
    exact dif_pos d.isDate

theorem of?_self (d : Date) : Date.of? d.year d.month d.day = some d :=
  of?_eq_some_iff.mpr ⟨rfl, rfl, rfl⟩

theorem exists_spaced {P : List Char → Prop} {cs piece after : List Char} (h : P piece)
    (hcs : skipBlanks cs = piece ++ after) :
    ∃ spaced, Spaced P spaced ∧ cs = spaced ++ skipBlanks after := by
  obtain ⟨front, hfront, hskip⟩ := exists_blanks cs
  obtain ⟨back, hback, hafter⟩ := exists_blanks after
  refine ⟨_, .intro hfront h hback, ?_⟩
  rw [List.append_assoc, List.append_assoc, ← hafter, ← hcs, ← hskip]

/-- A spaced piece is found between the blanks that are skipped. -/
theorem Spaced.exists_piece {P : List Char → Prop} {spaced : List Char} (h : Spaced P spaced)
    (hP : ∀ piece, P piece → ∀ after, ∀ c ∈ (piece ++ after).head?, isBlank c = false)
    (rest : List Char) (hrest : ∀ c ∈ rest.head?, isBlank c = false ∧ c.isDigit = false) :
    ∃ piece after, P piece ∧ skipBlanks (spaced ++ rest) = piece ++ after ∧
      (∀ c ∈ after.head?, c.isDigit = false) ∧ skipBlanks after = rest := by
  obtain @⟨front, piece, back, hfront, hpiece, hback⟩ := h
  refine ⟨piece, back ++ rest, hpiece, ?_, ?_, ?_⟩
  · rw [List.append_assoc, List.append_assoc]
    exact skipBlanks_until hfront (hP piece hpiece _)
  · cases back with
    | nil => exact fun c hc => (hrest c hc).2
    | cons c back =>
        rintro _ ⟨⟩
        exact isDigit_of_isBlank (hback c List.mem_cons_self)
  · exact skipBlanks_until hback fun c hc => (hrest c hc).1

theorem Date.written_of_read {s : String} {d : Date} (h : Date.read s = .ok d) :
    d.WrittenIn s := by
  unfold Date.read at h
  obtain ⟨⟨year, afterYear⟩, hyear, h⟩ := bind_eq_ok_iff.mp h
  obtain ⟨beforeMonth, hfirst, h⟩ := bind_eq_ok_iff.mp h
  obtain ⟨⟨month, afterMonth⟩, hmonth, h⟩ := bind_eq_ok_iff.mp h
  obtain ⟨beforeDay, hsecond, h⟩ := bind_eq_ok_iff.mp h
  obtain ⟨⟨day, afterDay⟩, hday, h⟩ := bind_eq_ok_iff.mp h
  dsimp only at h
  split at h
  · cases h
  next hend =>
  split at h
  · next hdate =>
      cases h
      obtain ⟨rfl, rfl, rfl⟩ := of?_eq_some_iff.mp hdate
      obtain ⟨piece, hpiece, hcs⟩ := of_readYear hyear
      obtain ⟨spacedYear, hspacedYear, htext⟩ :=
        exists_spaced (P := (IsYear · d.year)) hpiece hcs
      obtain ⟨piece, hpiece, hcs⟩ := of_readPart hmonth
      obtain ⟨spacedMonth, hspacedMonth, hbeforeMonth⟩ :=
        exists_spaced (P := (IsPart · d.month)) hpiece hcs
      obtain ⟨piece, hpiece, hcs⟩ := of_readPart hday
      obtain ⟨spacedDay, hspacedDay, hbeforeDay⟩ :=
        exists_spaced (P := (IsPart · d.day)) hpiece hcs
      have hnone : skipBlanks afterDay = [] := by simpa using hend
      refine ⟨spacedYear, spacedMonth, spacedDay, ?_, hspacedYear, hspacedMonth, hspacedDay⟩
      rw [htext, of_skipHyphen hfirst, hbeforeMonth, of_skipHyphen hsecond, hbeforeDay, hnone,
        List.append_nil]
  · cases h

theorem Date.read_of_written {s : String} {d : Date} (h : d.WrittenIn s) :
    Date.read s = .ok d := by
  obtain ⟨spacedYear, spacedMonth, spacedDay, htext, hyear, hmonth, hday⟩ := h
  have hhyphen (rest : List Char) :
      ∀ c ∈ ('-' :: rest).head?, isBlank c = false ∧ c.isDigit = false := by
    rintro _ ⟨⟩
    decide
  have hpart {n : Nat} (piece : List Char) (h : IsPart piece n) := h.toIsNumber.head?_not_blank
  obtain ⟨year, afterYear, hyear, hskipYear, hyearEnd, hfirst⟩ :=
    hyear.exists_piece (fun _ h => h.head?_not_blank) _ (hhyphen (spacedMonth ++ '-' :: spacedDay))
  obtain ⟨month, afterMonth, hmonth, hskipMonth, hmonthEnd, hsecond⟩ :=
    hmonth.exists_piece hpart _ (hhyphen spacedDay)
  obtain ⟨day, afterDay, hday, hskipDay, hdayEnd, hend⟩ := hday.exists_piece hpart [] nofun
  rw [List.append_nil] at hskipDay
  have hbounds := d.isDate.1
  have hreadYear := readYear_year hyear (by omega) hyearEnd
  have hreadMonth := readPart_part hmonth ⟨d.month_pos, d.month_le⟩ hmonthEnd
  have hreadDay := readPart_part hday ⟨d.day_pos, d.day_le⟩ hdayEnd
  have hskipHyphen (rest : List Char) : skipHyphen ('-' :: rest) = .ok rest := rfl
  unfold Date.read
  rw [htext, hskipYear, hreadYear]
  simp only [ok_bind, hfirst, hskipHyphen, hskipMonth, hreadMonth, hsecond, hskipDay, hreadDay, hend,
    of?_self]
  rfl

/-- **A text is read as a date if it writes the date.** -/
theorem Date.read_eq_ok_iff {s : String} {d : Date} : Date.read s = .ok d ↔ d.WrittenIn s :=
  ⟨Date.written_of_read, Date.read_of_written⟩

/-! ### The texts of dates -/

theorem isYear_yearText (year : Int) : IsYear (yearText year) year := by
  have hnumber : IsNumber (padded 4 year.natAbs) year.natAbs := isNumber_padded (by decide) _
  unfold yearText
  split
  · next hplain =>
      have hlength : (padded 4 year.natAbs).length = 4 := length_padded (by decide) (by omega)
      have hyear := IsYear.plain hnumber hlength.le
      rwa [show (year.natAbs : Int) = year by omega] at hyear
  · by_cases hneg : year < 0
    · have hyear := IsYear.minus hnumber
      rw [show -(year.natAbs : Int) = year by omega] at hyear
      rwa [if_pos hneg]
    · have hyear := IsYear.plus hnumber
      rw [show (year.natAbs : Int) = year by omega] at hyear
      rwa [if_neg hneg]

theorem isPart_padded {n : Nat} (h : n < 100) : IsPart (padded 2 n) n where
  toIsNumber := isNumber_padded (by decide) n
  length_le := (length_padded (by decide) h).le

theorem spaced_self {P : List Char → Prop} {piece : List Char} (h : P piece) : Spaced P piece := by
  have hspaced := @Spaced.intro P [] piece [] nofun h nofun
  rwa [List.nil_append, List.append_nil] at hspaced

/-- **Every date is read back from its text**, of whatever year. -/
theorem Date.read_text (d : Date) : Date.read d.text = .ok d := by
  have hmonth := d.month_le
  have hday := d.day_le
  refine Date.read_eq_ok_iff.mpr ⟨yearText d.year, padded 2 d.month, padded 2 d.day, ?_,
    spaced_self (isYear_yearText d.year), spaced_self (isPart_padded (by omega)),
    spaced_self (isPart_padded (by omega))⟩
  rw [Date.text, String.toList_ofList, List.append_assoc, List.cons_append]

end Posting.Calendar
