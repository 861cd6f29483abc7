import Mathlib.Data.Prod.Lex
import Mathlib.Tactic
import Posting.Profile.Codec
import Posting.Proofs.JsonCodecs

/-! # Positions in fiscal years

The fiscal year of a date and its period are computed apart, one by comparing months and the other by
counting them around the year.  Together they count the same months as the calendar does, from the
month in which the fiscal year starts.

* `FiscalCalendar.months_eq`: the count of months, from which all else follows.
* `FiscalCalendar.position_lt_iff` and `FiscalCalendar.position_eq_following_iff`: positions are in the
  order of the months, and follow each other as the months do.
* `fiscalPeriodWithin?_eq`: no difference falls below zero where 32-bit words without a sign are
  subtracted.
* `FiscalCalendar.ofMonth_eq_ok_iff`, `FiscalCalendar.codec_decode_eq_ok_iff` and
  `FiscalCalendar.codec_read_eq_ok_iff` say from what a fiscal year is made.

`FiscalCalendar.positions_follow_months` puts these together. -/

namespace Posting

open Calendar Json

namespace Calendar

/-! ### Words of 32 bits -/

/-- A number, if a 32-bit word without a sign holds it. -/
def word? (n : ℤ) : Option ℕ :=
  if 0 ≤ n ∧ n < 2 ^ 32 then some n.toNat else none

/-- The period of a month, with every step computed in a 32-bit word without a sign. -/
def fiscalPeriodWithin? (month start : ℕ) : Option ℕ := do
  let ahead ← word? (month + 12)
  let passed ← word? (ahead - start)
  word? (passed % 12 + 1)

theorem word?_natCast {n : ℕ} (h : n < 2 ^ 32) : word? n = some n := by
  rw [word?, if_pos ⟨Int.natCast_nonneg n, by exact_mod_cast h⟩, Int.toNat_natCast]

/-- **Every step fits its word** unless the fiscal year starts more than a year after the month. -/
theorem fiscalPeriodWithin?_eq {month start : ℕ} (hstart : start ≤ month + 12)
    (hmonth : month + 12 < 2 ^ 32) :
    fiscalPeriodWithin? month start = some (fiscalPeriod month start) := by
  have hahead : word? (month + 12) = some (month + 12) := word?_natCast hmonth
  have hdifference : ((month + 12 : ℕ) : ℤ) - start = (month + 12 - start : ℕ) := by omega
  have hpassed : word? ((month + 12 : ℕ) - start) = some (month + 12 - start) := by
    rw [hdifference, word?_natCast (by omega)]
  have hlt : (month + 12 - start) % 12 + 1 < 2 ^ 32 := by omega
  have hperiod : word? ((month + 12 - start : ℕ) % 12 + 1) =
      some ((month + 12 - start) % 12 + 1) := word?_natCast hlt
  rw [fiscalPeriodWithin?, hahead, Option.bind_eq_bind, Option.bind_some, hpassed,
    Option.bind_some, hperiod, fiscalPeriod]

/-- The place after one of the twelve places of a year. -/
def following : ℤ × ℕ → ℤ × ℕ
  | (year, place) => if place = 12 then (year + 1, 1) else (year, place + 1)

namespace FiscalCalendar

variable (calendar : FiscalCalendar) (d e : Date)

/-- The fiscal year of a date and its period. -/
def position : ℤ × ℕ :=
  (calendar.year d, calendar.period d)

theorem period_pos : 1 ≤ calendar.period d :=
  Nat.succ_pos _

theorem period_le : calendar.period d ≤ 12 := by
  unfold period fiscalPeriod
  omega

/-- **Periods of fiscal years count the months** from the one in which the fiscal year starts. -/
theorem months_eq :
    12 * calendar.year d + calendar.period d - 1 =
      12 * d.year + d.month - calendar.startMonth := by
  have hmonth_pos := d.month_pos
  have hmonth_le := d.month_le
  have hstart_pos := calendar.start_pos
  have hstart_le := calendar.start_le
  unfold year period fiscalPeriod
  split <;> omega

theorem position_lt_iff :
    toLex (calendar.position d) < toLex (calendar.position e) ↔
      toLex (d.year, d.month) < toLex (e.year, e.month) := by
  have hd := calendar.months_eq d
  have he := calendar.months_eq e
  have hd_pos := calendar.period_pos d
  have hd_le := calendar.period_le d
  have he_pos := calendar.period_pos e
  have he_le := calendar.period_le e
  have hd_month := d.isDate.2.1
  have he_month := e.isDate.2.1
  rw [Prod.Lex.toLex_lt_toLex, Prod.Lex.toLex_lt_toLex, position, position]
  simp only
  omega

theorem eq_following_iff {year year' : ℤ} {place place' : ℕ} (h : 1 ≤ place ∧ place ≤ 12)
    (h' : 1 ≤ place' ∧ place' ≤ 12) :
    (year', place') = following (year, place) ↔
      12 * year' + place' = 12 * year + place + 1 := by
  unfold following
  simp only
  split <;> rw [Prod.mk.injEq] <;> omega

/-- **The position after that of a date is the one of the next month**, also at the end of a year. -/
theorem position_eq_following_iff :
    calendar.position e = following (calendar.position d) ↔
      (e.year, e.month) = following (d.year, d.month) := by
  have hd := calendar.months_eq d
  have he := calendar.months_eq e
  rw [position, position,
    eq_following_iff ⟨calendar.period_pos d, calendar.period_le d⟩
      ⟨calendar.period_pos e, calendar.period_le e⟩,
    eq_following_iff d.isDate.2.1 e.isDate.2.1]
  omega

/-! ### Where fiscal years come from -/

theorem ofMonth_eq_ok_iff {month : ℕ} :
    ofMonth month = .ok calendar ↔ month = calendar.startMonth := by
  unfold ofMonth
  split
  · rw [Except.ok.injEq]
    constructor
    · rintro rfl
      rfl
    · rintro rfl
      rfl
  · next hrange =>
      refine ⟨nofun, ?_⟩
      rintro rfl
      exact absurd ⟨calendar.start_pos, calendar.start_le⟩ hrange

theorem codec_decode_eq_ok_iff {value : Value} :
    codec.decode value = .ok calendar ↔ value = .int calendar.startMonth := by
  have hword : calendar.startMonth < 2 ^ 32 := calendar.start_le.trans_lt (by decide)
  rw [codec, Codec.refine_decode_eq_ok_iff]
  simp only [mapError_eq_ok_iff, ofMonth_eq_ok_iff, Codec.natural_decode_eq_ok_iff]
  constructor
  · rintro ⟨_, ⟨rfl, -⟩, rfl⟩
    rfl
  · rintro rfl
    exact ⟨_, ⟨rfl, hword⟩, rfl⟩

theorem codec_read_eq_ok_iff {text : String} :
    codec.read text = .ok calendar ↔ Value.read text = .ok (.int calendar.startMonth) := by
  have hword : calendar.startMonth < 2 ^ 32 := calendar.start_le.trans_lt (by decide)
  rw [codec, Codec.refine_read_eq_ok_iff]
  simp only [mapError_eq_ok_iff, ofMonth_eq_ok_iff, Codec.natural_read_eq_ok_iff]
  constructor
  · rintro ⟨_, ⟨hread, -⟩, rfl⟩
    exact hread
  · intro hread
    exact ⟨_, ⟨hread, hword⟩, rfl⟩

/-- **Fiscal positions follow the months.**  For every fiscal year and all dates, whatever the year is
made from: the period is computed without a difference below zero and lies between 1 and 12, and the
count of months that fiscal year and period make up is that of the calendar, counted from the month in
which the fiscal year starts.  So positions are in the order of the months, and the position after
that of a date is the one of the next month, also at the end of a year.  A fiscal year is made from
the months 1 to 12 and from no other number, and its JSON form is the integer of its month. -/
theorem positions_follow_months :
    (fiscalPeriodWithin? d.month calendar.startMonth = some (calendar.period d) ∧
        1 ≤ calendar.period d ∧ calendar.period d ≤ 12) ∧
      12 * calendar.year d + calendar.period d - 1 =
        12 * d.year + d.month - calendar.startMonth ∧
      (toLex (calendar.position d) < toLex (calendar.position e) ↔
        toLex (d.year, d.month) < toLex (e.year, e.month)) ∧
      (calendar.position e = following (calendar.position d) ↔
        (e.year, e.month) = following (d.year, d.month)) ∧
      ((∀ month, (∃ made, ofMonth month = .ok made) ↔ 1 ≤ month ∧ month ≤ 12) ∧
        (∀ month, ofMonth month = .ok calendar ↔ month = calendar.startMonth) ∧
        calendarYear.startMonth = 1 ∧ (default : FiscalCalendar) = calendarYear) ∧
      (∀ value, (∃ made, codec.decode value = .ok made) ↔
        ∃ month : ℕ, (1 ≤ month ∧ month ≤ 12) ∧ value = .int month) ∧
      (∀ value, codec.decode value = .ok calendar ↔ value = codec.encode calendar) ∧
      (∀ text, codec.read text = .ok calendar ↔ Value.read text = .ok (codec.encode calendar)) ∧
      codec.encode calendar = .int calendar.startMonth := by
  have hmade (month : ℕ) : (∃ made, ofMonth month = .ok made) ↔ 1 ≤ month ∧ month ≤ 12 := by
    constructor
    · rintro ⟨made, hmade⟩
      rw [(ofMonth_eq_ok_iff made).mp hmade]
      exact ⟨made.start_pos, made.start_le⟩
    · intro hrange
      exact ⟨⟨month, hrange.1, hrange.2⟩, (ofMonth_eq_ok_iff _).mpr rfl⟩
  have hdecoded (value : Value) : (∃ made, codec.decode value = .ok made) ↔
      ∃ month : ℕ, (1 ≤ month ∧ month ≤ 12) ∧ value = .int month := by
    simp only [codec_decode_eq_ok_iff]
    constructor
    · rintro ⟨made, rfl⟩
      exact ⟨made.startMonth, ⟨made.start_pos, made.start_le⟩, rfl⟩
    · rintro ⟨month, hrange, rfl⟩
      exact ⟨⟨month, hrange.1, hrange.2⟩, rfl⟩
  have hmonth := d.month_le
  have hstart := calendar.start_le
  exact ⟨⟨fiscalPeriodWithin?_eq (by omega) (by omega), calendar.period_pos d,
      calendar.period_le d⟩, calendar.months_eq d, calendar.position_lt_iff d e,
    calendar.position_eq_following_iff d e,
    ⟨hmade, fun _ => calendar.ofMonth_eq_ok_iff, rfl, rfl⟩, hdecoded,
    fun _ => calendar.codec_decode_eq_ok_iff, fun _ => calendar.codec_read_eq_ok_iff, rfl⟩

end FiscalCalendar

end Calendar

end Posting
