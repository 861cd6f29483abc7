import Posting.Calendar.Pattern
import Posting.Proofs.DayNumbers

/-! # Dates written without loss

The compact form of a date, its form under the standard pattern, and its month and year by name each
tell what they show, of whatever year: a year has its sign and at least four digits, so that it can
stand next to digits as long as it is known how many these are.

* `Date.ofCompact?` and `Date.ofStandard?` read a date from the positions of its parts, and give every
  date back (`ofCompact?_compact`, `ofStandard?_write`).
* `monthAndYear_eq_iff`: the month by its name and the year tell the month and the year.
* `compact_lt_iff`: within the years 0 to 9999 compact forms are sorted as the days are.

`Date.encodings_tell_dates` puts these together. -/

namespace Posting.Calendar

open Text

/-! ### Years -/

/-- The number that digits with or without a sign denote. -/
def readSigned : List Char → ℤ
  | '-' :: cs => -(readDigits cs : ℤ)
  | '+' :: cs => readDigits cs
  | cs => readDigits cs

theorem readSigned_of_allDigits {cs : List Char} (h : AllDigits cs) :
    readSigned cs = readDigits cs := by
  unfold readSigned
  split
  · exact absurd (h '-' List.mem_cons_self) (by decide)
  · exact absurd (h '+' List.mem_cons_self) (by decide)
  · rfl

/-- **A year is read back from its text**, whatever its sign and its number of digits. -/
theorem readSigned_yearText (year : ℤ) : readSigned (yearText year) = year := by
  unfold yearText
  by_cases hplain : 0 ≤ year ∧ year ≤ 9999
  · rw [if_pos hplain, readSigned_of_allDigits (allDigits_padded _ _), readDigits_padded]
    omega
  · rw [if_neg hplain]
    by_cases hneg : year < 0
    · rw [if_pos hneg, readSigned, readDigits_padded]
      omega
    · rw [if_neg hneg, readSigned, readDigits_padded]
      omega

theorem yearText_injective : Function.Injective yearText :=
  fun year other h => by rw [← readSigned_yearText year, h, readSigned_yearText]

theorem yearText_of_plain {year : ℤ} (h : 0 ≤ year ∧ year ≤ 9999) :
    yearText year = padded 4 year.toNat := by
  have habs : year.natAbs = year.toNat := by omega
  rw [yearText, if_pos h, habs]

theorem space_not_mem_yearText (year : ℤ) : ' ' ∉ yearText year := by
  have hdigits : ' ' ∉ padded 4 year.natAbs := (allDigits_padded 4 _).not_mem (by decide)
  unfold yearText
  split
  · exact hdigits
  · rw [List.mem_cons, not_or]
    refine ⟨?_, hdigits⟩
    split <;> decide

/-! ### Months and days -/

theorem Date.length_month (d : Date) : (padded 2 d.month).length = 2 :=
  length_padded (by decide) (by have := d.month_le; omega)

theorem Date.length_day (d : Date) : (padded 2 d.day).length = 2 :=
  length_padded (by decide) (by have := d.day_le; omega)

theorem writePair_zeros {n : ℕ} (h : n < 32) : Padding.zeros.writePair n = padded 2 n := by
  have table : ∀ n < 32, Padding.zeros.writePair n = padded 2 n := by decide
  exact table n h

namespace Date

/-! ### Compact dates -/

theorem toList_compact (d : Date) :
    d.compact.toList = yearText d.year ++ (padded 2 d.month ++ padded 2 d.day) := by
  rw [compact, String.toList_ofList, List.append_assoc]

/-- The date of a compact form: the last two characters are the day, the two before them the month,
and the rest is the year. -/
def ofCompact? (text : String) : Option Date :=
  let cs := text.toList
  let front := cs.take (cs.length - 4)
  let back := cs.drop (cs.length - 4)
  of? (readSigned front) (readDigits (back.take 2)) (readDigits (back.drop 2))

/-- **Every date is read back from its compact form.** -/
theorem ofCompact?_compact (d : Date) : ofCompact? d.compact = some d := by
  have hlength : (padded 2 d.month ++ padded 2 d.day).length = 4 := by
    rw [List.length_append, d.length_month, d.length_day]
  have hfront : d.compact.toList.length - 4 = (yearText d.year).length := by
    rw [toList_compact, List.length_append, hlength, Nat.add_sub_cancel]
  unfold ofCompact?
  simp only [hfront]
  rw [toList_compact, List.take_left, List.drop_left, List.take_left' d.length_month,
    List.drop_left' d.length_month, readSigned_yearText, readDigits_padded, readDigits_padded,
    of?_self]

theorem compact_injective : Function.Injective compact := by
  intro d e h
  rw [← Option.some.injEq, ← ofCompact?_compact d, h, ofCompact?_compact]

/-! ### The standard pattern -/

theorem toList_write_standard (d : Date) :
    (DisplayFormat.standard.write d).toList =
      padded 2 d.month ++ '/' :: (padded 2 d.day ++ '/' :: yearText d.year) := by
  have hmonth := d.month_le
  have hday := d.day_le
  have hitems : items DisplayFormat.standard.pattern.toList =
      [.number .month .zeros, .literal '/', .number .day .zeros, .literal '/',
        .number .year .zeros] := by decide
  have hrender : render? DisplayFormat.standard.pattern d =
      some (String.ofList (padded 2 d.month ++ '/' :: (padded 2 d.day ++ '/' :: yearText d.year))) := by
    rw [render?, hitems, ← writePair_zeros (by omega : d.month < 32),
      ← writePair_zeros (by omega : d.day < 32)]
    simp [writeAll?, Item.write?, DateField.write, Padding.writeYear]
  rw [DisplayFormat.write, Option.get_of_eq_some _ hrender, String.toList_ofList]

/-- The date of a standard form: the first two characters are the month, the two behind the slash the
day, and the rest behind the other slash is the year. -/
def ofStandard? (text : String) : Option Date :=
  let cs := text.toList
  of? (readSigned (cs.drop 6)) (readDigits (cs.take 2)) (readDigits ((cs.drop 3).take 2))

/-- **Every date is read back from its standard form.** -/
theorem ofStandard?_write (d : Date) : ofStandard? (DisplayFormat.standard.write d) = some d := by
  obtain ⟨m, m', hmonth⟩ := List.length_eq_two.mp d.length_month
  obtain ⟨n, n', hday⟩ := List.length_eq_two.mp d.length_day
  have hmonth_read : readDigits [m, m'] = d.month := by rw [← hmonth, readDigits_padded]
  have hday_read : readDigits [n, n'] = d.day := by rw [← hday, readDigits_padded]
  have hcs : (DisplayFormat.standard.write d).toList =
      m :: m' :: '/' :: n :: n' :: '/' :: yearText d.year := by
    rw [toList_write_standard, hmonth, hday]
    rfl
  unfold ofStandard?
  rw [hcs]
  show of? (readSigned (yearText d.year)) (readDigits [m, m']) (readDigits [n, n']) = some d
  rw [readSigned_yearText, hmonth_read, hday_read, of?_self]

theorem write_standard_injective : Function.Injective DisplayFormat.standard.write := by
  intro d e h
  rw [← Option.some.injEq, ← ofStandard?_write d, h, ofStandard?_write]

/-! ### Month and year -/

theorem space_not_mem_monthName (month : ℕ) : ' ' ∉ (monthName month).toList := by
  unfold monthName
  split <;> decide

theorem monthName_inj {month other : ℕ} (h : 1 ≤ month ∧ month ≤ 12) (h' : 1 ≤ other ∧ other ≤ 12)
    (heq : monthName month = monthName other) : month = other := by
  have table : ∀ m < 13, ∀ n < 13, 1 ≤ m → 1 ≤ n → monthName m = monthName n → m = n := by decide
  exact table month (by omega) other (by omega) h.1 h'.1 heq

theorem monthAndYear_eq_iff (d e : Date) :
    d.monthAndYear = e.monthAndYear ↔ d.year = e.year ∧ d.month = e.month := by
  constructor
  · intro h
    have hlist := congrArg String.toList h
    rw [monthAndYear, monthAndYear, String.toList_ofList, String.toList_ofList] at hlist
    obtain ⟨hmonth, -, hyear⟩ := (List.append_cons_inj_of_notMem
      (space_not_mem_monthName d.month) (space_not_mem_yearText d.year)).mp hlist
    exact ⟨yearText_injective hyear, monthName_inj d.isDate.2.1 e.isDate.2.1
      (String.toList_inj.mp hmonth)⟩
  · rintro ⟨hyear, hmonth⟩
    rw [monthAndYear, monthAndYear, hyear, hmonth]

/-! ### The order of compact dates -/

theorem allDigits_compact {d : Date} (h : 0 ≤ d.year ∧ d.year ≤ 9999) :
    AllDigits d.compact.toList := by
  rw [toList_compact, yearText_of_plain h]
  exact (allDigits_padded _ _).append ((allDigits_padded _ _).append (allDigits_padded _ _))

theorem length_compact {d : Date} (h : 0 ≤ d.year ∧ d.year ≤ 9999) :
    d.compact.toList.length = 8 := by
  rw [toList_compact, yearText_of_plain h, List.length_append, List.length_append, d.length_month,
    d.length_day, length_padded (by decide) (by omega)]

theorem readDigits_compact {d : Date} (h : 0 ≤ d.year ∧ d.year ≤ 9999) :
    readDigits d.compact.toList = d.year.toNat * 10000 + d.month * 100 + d.day := by
  rw [toList_compact, yearText_of_plain h, readDigits_append, readDigits_append,
    List.length_append, d.length_month, d.length_day, readDigits_padded, readDigits_padded,
    readDigits_padded]
  omega

theorem compact_lt_iff {d e : Date} (hd : 0 ≤ d.year ∧ d.year ≤ 9999)
    (he : 0 ≤ e.year ∧ e.year ≤ 9999) : d.compact < e.compact ↔ d.dayNumber < e.dayNumber := by
  have hlength : d.compact.toList.length = e.compact.toList.length := by
    rw [length_compact hd, length_compact he]
  have := d.month_le
  have := e.month_le
  have := d.day_le
  have := e.day_le
  rw [String.lt_iff, lt_iff_readDigits_lt (allDigits_compact hd) (allDigits_compact he) hlength,
    readDigits_compact hd, readDigits_compact he, dayNumber_lt_iff, Precedes]
  omega

/-- **Dates are written without loss.**  The compact form and the form under the standard pattern give
every date back, of whatever year, so that each tells two dates apart; the month by its name and the
year tell the month and the year, and no more.  Within the years that need no sign a compact form is
eight digits, and compact forms are sorted as the days are. -/
theorem encodings_tell_dates (d e : Date) :
    (ofCompact? d.compact = some d ∧ (d.compact = e.compact ↔ d = e)) ∧
      (ofStandard? (DisplayFormat.standard.write d) = some d ∧
        (DisplayFormat.standard.write d = DisplayFormat.standard.write e ↔ d = e)) ∧
      (d.monthAndYear = e.monthAndYear ↔ d.year = e.year ∧ d.month = e.month) ∧
      (0 ≤ d.year ∧ d.year ≤ 9999 →
        AllDigits d.compact.toList ∧ d.compact.toList.length = 8) ∧
      (0 ≤ d.year ∧ d.year ≤ 9999 → 0 ≤ e.year ∧ e.year ≤ 9999 →
        (d.compact < e.compact ↔ d.dayNumber < e.dayNumber)) := by
  exact ⟨⟨ofCompact?_compact d, compact_injective.eq_iff⟩,
    ⟨ofStandard?_write d, write_standard_injective.eq_iff⟩, monthAndYear_eq_iff d e,
    fun hd => ⟨allDigits_compact hd, length_compact hd⟩, compact_lt_iff⟩

/-- A leap day and the first of March behind it, in the last year that needs no sign; and the first
date of all, of which the year has six digits and a sign. -/
theorem encodings_tell_dates_at_edges :
    let leapDay : Date := ⟨9996, 2, 29, by decide⟩
    let next : Date := ⟨9996, 3, 1, by decide⟩
    let first : Date := ⟨-262143, 1, 1, by decide⟩
    leapDay.compact < next.compact ∧ leapDay.compact.toList.length = 8 ∧
      first.compact = "-2621430101" ∧ ofCompact? "-2621430101" = some first := by
  intro leapDay next first
  have hleap : 0 ≤ leapDay.year ∧ leapDay.year ≤ 9999 := by decide
  have hnext : 0 ≤ next.year ∧ next.year ≤ 9999 := by decide
  have hdays : leapDay.dayNumber < next.dayNumber := by decide
  have hfirst : first.compact = "-2621430101" := by decide
  obtain ⟨-, -, -, hdigits, horder⟩ := encodings_tell_dates leapDay next
  refine ⟨(horder hleap hnext).mpr hdays, (hdigits hleap).2, hfirst, ?_⟩
  rw [← hfirst]
  exact (encodings_tell_dates first first).1.1

end Date

end Posting.Calendar
