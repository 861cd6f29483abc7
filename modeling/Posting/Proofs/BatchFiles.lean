import Posting.Profile
import Posting.Proofs.ControlTotals
import Posting.Proofs.DisplayPatterns

/-! # The batch file of a profile

What a profile makes of transactions for a destination and a date: the text of the file
(`ResolvedProfile.fileText`), the number of rows and the total.  `ResolvedProfile.text_render`,
`rows_summary` and `total_summary` say that a batch of the profile that is extended by transactions,
and refuses none, comes to that. -/

namespace Posting

open Calendar

/-! ### Profiles -/

namespace Profile

variable {profile : Profile}

theorem error_of_resolve {error : ExportError} (h : profile.resolve = .error error) :
    (∃ faults, error = .invalidProfile faults) ∨ ∃ cause, error = .calendar cause := by
  unfold resolve at h
  split at h
  · refine Or.inr ?_
    cases hcalendar : FiscalCalendar.ofMonth profile.fiscalStartMonth with
    | error cause =>
        rw [hcalendar] at h
        cases h
        exact ⟨cause, rfl⟩
    | ok calendar =>
        rw [hcalendar] at h
        cases hformat : DisplayFormat.ofPattern profile.displayDateFormat with
        | error cause =>
            rw [hformat] at h
            cases h
            exact ⟨cause, rfl⟩
        | ok format =>
            rw [hformat] at h
            cases h
  · cases h
    exact Or.inl ⟨_, rfl⟩

theorem parts_of_resolve {resolved : ResolvedProfile} (h : profile.resolve = .ok resolved) :
    resolved.appName = profile.appName ∧
      resolved.calendar.startMonth = profile.fiscalStartMonth ∧
      resolved.format.pattern = profile.displayDateFormat := by
  unfold resolve at h
  split at h
  · obtain ⟨calendar, hcalendar, h⟩ := bind_eq_ok_iff.mp h
    obtain ⟨format, hformat, h⟩ := bind_eq_ok_iff.mp h
    cases h
    refine ⟨rfl, ?_, ?_⟩
    · have hmonth := mapError_eq_ok_iff.mp hcalendar
      unfold FiscalCalendar.ofMonth at hmonth
      split at hmonth
      · cases hmonth
        rfl
      · cases hmonth
    · exact ((DisplayFormat.ofPattern_eq_ok_iff _ _).mp (mapError_eq_ok_iff.mp hformat)).2.2
  · cases h

end Profile

/-! ### Files -/

/-- The line with the names of the columns of the row that shows the heading. -/
def journalLine : String :=
  "\"RECTYPE\",\"BATCHID\",\"BTCHENTRY\",\"ORIGCOMP\",\"SRCELEDGER\",\"SRCETYPE\",\"FSCSYR\"," ++
    "\"FSCSPERD\",\"SWEDIT\",\"JRNLDESC\",\"REVPERD\",\"JRNLDR\",\"JRNLCR\",\"JRNLQTY\"," ++
    "\"SWBALANCE\"\n"

/-- The lines with the names of the columns in the file of a destination. -/
def Destination.columnLines : Destination → String
  | .generalLedger =>
    journalLine ++ "\"RECTYPE\",\"BATCHNBR\",\"JOURNALID\",\"ACCTID\",\"TRANSAMT\"," ++
      "\"TRANSDESC\",\"TRANSREF\",\"TRANSDATE\"\n"
  | .sequencedLedger =>
    journalLine ++ "\"RECTYPE\",\"BATCHNBR\",\"JOURNALID\",\"TRANSNBR\",\"ACCTID\",\"TRANSAMT\"," ++
      "\"TRANSDESC\",\"TRANSREF\",\"TRANSDATE\"\n"
  | .policyholderStatement => "\"Amount\",\"Description\",\"Reference\",\"Date Entered\"\n"

theorem Layout.preamble_of (destination : Destination) (format : DisplayFormat)
    (heading : Heading) :
    (Layout.of destination format).preamble heading =
      destination.columnLines ++ if destination.isLedger then heading.summaryRow else "" := by
  cases destination with
  | generalLedger =>
      have hcolumns : Heading.batchColumns ++ Heading.ledgerColumns =
          Destination.columnLines .generalLedger := by decide +kernel
      exact congrArg (· ++ heading.summaryRow) hcolumns
  | sequencedLedger =>
      have hcolumns : Heading.batchColumns ++ Heading.sequencedColumns =
          Destination.columnLines .sequencedLedger := by decide +kernel
      exact congrArg (· ++ heading.summaryRow) hcolumns
  | policyholderStatement =>
      have hcolumns : Heading.statementColumns =
          Destination.columnLines .policyholderStatement ++ "" := by decide +kernel
      exact hcolumns

/-- A number with zeros in front up to a width. -/
def zeroFilled (width n : Nat) : String :=
  String.ofList (List.replicate (width - n.repr.toList.length) '0') ++ n.repr

/-- A year as headings describe it: four digits at least, and a sign outside the years 0 to 9999. -/
def describedYear (year : Int) : String :=
  (if 0 ≤ year ∧ year ≤ 9999 then "" else if year < 0 then "-" else "+") ++
    zeroFilled 4 year.natAbs

theorem zeroFilled_eq (width n : Nat) : zeroFilled width n = String.ofList (Text.padded width n) := by
  rw [zeroFilled, Nat.repr, String.toList_ofList, ← String.ofList_append]
  rfl

theorem describedYear_eq (year : Int) : describedYear year = String.ofList (yearText year) := by
  rw [describedYear, zeroFilled_eq, yearText]
  split
  · rw [String.empty_append]
  · split
    · rw [String.ofList_cons]
      rfl
    · rw [String.ofList_cons]
      rfl

theorem toString_year (year : Int) : toString year = String.ofList (Text.integer year) := by
  cases year with
  | ofNat n => rfl
  | negSucc n =>
      rw [Text.integer, if_pos (Int.negSucc_lt_zero n), String.ofList_cons]
      rfl

theorem Heading.summaryRow_eq (heading : Heading) :
    heading.summaryRow =
      "\"1\",\"000000\",\"00001\",\"\",\"GL\",\"JE\",\"" ++ toString heading.year ++ "\",\"" ++
        zeroFilled 2 heading.period ++ "\",0,\"" ++ heading.description ++
        "\",\"00\",0,0,0,2\n" := by
  rw [summaryRow, toString_year, zeroFilled_eq, ← String.toList_inj]
  simp [Row.line, Row.cell]

theorem Destination.fileName_eq (destination : Destination) (year : Int) (period : Nat) :
    destination.fileName year period =
      destination.name ++ "_" ++ toString year ++ "_" ++ zeroFilled 2 period ++ ".csv" := by
  rw [fileName, toString_year, zeroFilled_eq]

namespace ResolvedProfile

/-- The place of a date's month in the fiscal year, from 1. -/
def shownPeriod (profile : ResolvedProfile) (d : Date) : Nat :=
  (d.month + 12 - profile.calendar.startMonth) % 12 + 1

/-- The line that shows the heading of a journal for a date: the calendar year of the date, the fiscal
period with two digits, and the description. -/
def summaryLine (profile : ResolvedProfile) (d : Date) : String :=
  "\"1\",\"000000\",\"00001\",\"\",\"GL\",\"JE\",\"" ++ toString d.year ++ "\",\"" ++
    zeroFilled 2 (profile.shownPeriod d) ++ "\",0,\"" ++
    (monthName d.month ++ " " ++ describedYear d.year ++ " " ++ profile.appName ++ " JE") ++
    "\",\"00\",0,0,0,2\n"

/-- The text of the file with the rows of transactions, for a destination and a date. -/
def fileText (profile : ResolvedProfile) (destination : Destination) (d : Date)
    (rows : List Transaction) : String :=
  destination.columnLines ++ (if destination.isLedger then profile.summaryLine d else "") ++
    String.join (rows.mapIdx fun i t =>
      Row.body ((Layout.of destination profile.format).columns (i + 1) t) ++ "\n")

theorem description_heading (profile : ResolvedProfile) (d : Date) :
    (profile.heading d).description =
      monthName d.month ++ " " ++ describedYear d.year ++ " " ++ profile.appName ++ " JE" := by
  have hmonth : d.monthAndYear = monthName d.month ++ " " ++ describedYear d.year := by
    rw [Date.monthAndYear, describedYear_eq, String.ofList_append, String.ofList_cons,
      String.ofList_toList, String.append_assoc]
    rfl
  rw [← hmonth]
  rfl

theorem summaryLine_eq (profile : ResolvedProfile) (d : Date) :
    (profile.heading d).summaryRow = profile.summaryLine d := by
  rw [Heading.summaryRow_eq, description_heading]
  rfl

end ResolvedProfile

namespace Batch

theorem toList_of_extend {batch filled : Batch} {ts : List Transaction}
    (h : batch.extend ts = (filled, none)) : filled.toList = batch.toList ++ exportable ts := by
  have hkept := batch.toList_extend ts
  have hrefusal := batch.refusal_extend ts
  rw [h] at hkept hrefusal
  rw [hkept, room?]
  cases hcap : batch.layout.cap? with
  | none => rfl
  | some cap =>
      rw [Option.map_some, upTo, List.take_of_length_le]
      by_contra hlt
      cases (hrefusal _).mpr ⟨cap, hcap, Nat.lt_of_not_le hlt, rfl⟩

end Batch

/-! ### Batches -/

theorem batchNamed_eq_error {profile : ResolvedProfile} {text : String} {d : Date}
    {error : ExportError} (h : Destination.parse text = .error error) :
    profile.batchNamed text d = .error error := by
  rw [ResolvedProfile.batchNamed, h]
  rfl

theorem batchNamed_eq_ok {profile : ResolvedProfile} {text : String} {d : Date}
    {destination : Destination} (h : Destination.parse text = .ok destination) :
    profile.batchNamed text d = .ok (profile.batch destination d) := by
  rw [ResolvedProfile.batchNamed, h]
  rfl

namespace ResolvedProfile

variable {profile : ResolvedProfile} {destination : Destination} {d : Date}
  {ts : List Transaction} {batch : Batch}

theorem filled (h : (profile.batch destination d).extend ts = (batch, none)) :
    batch.layout = .of destination profile.format ∧ batch.heading = profile.heading d ∧
      batch.toList = exportable ts := by
  have hlayout := (profile.batch destination d).layout_extend ts
  have hheading := (profile.batch destination d).heading_extend ts
  rw [h] at hlayout hheading
  exact ⟨hlayout, hheading, Batch.toList_of_extend h⟩

/-- **The file of a batch of a profile that has taken transactions.** -/
theorem text_render (h : (profile.batch destination d).extend ts = (batch, none)) :
    batch.render.text = profile.fileText destination d (exportable ts) := by
  obtain ⟨hlayout, hheading, hlist⟩ := filled h
  show batch.layout.preamble batch.heading ++ String.join batch.rows = _
  rw [Batch.rows_eq_lines, Batch.map_columns, hlayout, hheading, hlist, Layout.preamble_of,
    summaryLine_eq]
  rfl

theorem rows_summary (h : (profile.batch destination d).extend ts = (batch, none)) :
    batch.summary.rows = (exportable ts).length := by
  obtain ⟨-, -, hlist⟩ := filled h
  rw [← hlist, Batch.length_toList]
  rfl

theorem total_summary (h : (profile.batch destination d).extend ts = (batch, none))
    (hfew : (exportable ts).length < 0x200000000) :
    ∃ total, batch.summary.total = some total ∧
      total.value = -(((exportable ts).map (fun t => t.amount.minor)).sum : ℤ) / 100 := by
  obtain ⟨-, -, hlist⟩ := filled h
  have hamounts : batch.amounts = (exportable ts).map Transaction.amount := by
    rw [Batch.amounts, hlist]
  have hne : ∀ a ∈ batch.amounts, a.minor ≠ 0 := by
    intro a ha
    rw [hamounts] at ha
    obtain ⟨t, ht, rfl⟩ := List.mem_map.mp ha
    exact minor_ne_zero_of_mem_exportable ht
  have hlength : batch.amounts.length < 0x200000000 := by
    rw [hamounts, List.length_map]
    exact hfew
  obtain ⟨total, htotal, hvalue⟩ := Amount.value_sum?_negated hne hlength
  refine ⟨total, batch.total_summary.trans htotal, ?_⟩
  rw [hvalue, Amount.ledgerTotal, hamounts, List.map_map, Int.cast_neg]
  rfl

end ResolvedProfile

end Posting
