import Posting.Batch
import Posting.Proofs.MoneyText
import Posting.Proofs.TextPieces
import Posting.Sample

/-! # Batch files read back

A row is a list of columns (`Column`), of which texts stand between quotes and amounts without.
`Layout.columns` lists the columns of a transaction's row, and `Row.fields_body` finds them
again in it if they are plain: if nothing in them ends a cell or a line, and no quote stands at
their ends (`Row.Plain`).

Only the texts of `Layout.texts` can fail to be plain, since all other columns are numbers
(`Layout.plain_columns`).  `Batch.rows_render` finds the rows of a batch file, and
`Batch.fields_render` their columns. -/

namespace Posting

open Calendar Text

/-! ### Columns -/

/-- What a row shows in one place: a text between quotes, or one without. -/
inductive Column
  | quoted (text : String)
  | bare (text : String)
  deriving DecidableEq, Repr

namespace Column

def text : Column → String
  | .quoted text => text
  | .bare text => text

/-- The cell that shows the column. -/
def cell : Column → String
  | .quoted text => "\"" ++ text ++ "\""
  | .bare text => text

theorem toList_cell_quoted (s : String) :
    (Column.quoted s).cell.toList = '"' :: (s.toList ++ ['"']) := by
  simp [cell]

theorem getLast?_cell_quoted (s : String) :
    (Column.quoted s).cell.toList.getLast? = some '"' := by
  rw [toList_cell_quoted, ← List.cons_append, List.getLast?_concat]

theorem not_mem_cell {column : Column} {c : Char} (hc : c ≠ '"') (h : c ∉ column.text.toList) :
    c ∉ column.cell.toList := by
  cases column with
  | bare s => exact h
  | quoted s =>
      rw [toList_cell_quoted, List.mem_cons, List.mem_append, List.mem_singleton, not_or, not_or]
      exact ⟨hc, h, hc⟩

end Column

namespace Row

/-- The row of columns, without its end. -/
def body (columns : List Column) : String :=
  ",".intercalate (columns.map Column.cell)

/-- A text that a row shows without loss: nothing in it ends a cell or a line, and no quote stands
at its ends. -/
def Plain (s : String) : Prop :=
  ',' ∉ s.toList ∧ '\n' ∉ s.toList ∧ s.toList.head? ≠ some '"' ∧ s.toList.getLast? ≠ some '"'

instance (s : String) : Decidable (Plain s) :=
  inferInstanceAs (Decidable (_ ∧ _))

theorem stripQuotes_cell {column : Column} (h : Plain column.text) :
    stripQuotes column.cell.toList = column.text.toList := by
  have hunquoted : Unquoted column.text.toList := ⟨h.2.2.1, h.2.2.2⟩
  cases column with
  | bare s => exact stripQuotes_bare hunquoted
  | quoted s =>
      rw [Column.toList_cell_quoted]
      exact stripQuotes_quoted hunquoted

/-- **Columns are found again in a row** if they are plain. -/
theorem fields_body {columns : List Column} (hne : columns ≠ [])
    (h : ∀ column ∈ columns, Plain column.text) :
    Row.fields (body columns) = columns.map Column.text := by
  have hcells : ∀ cell ∈ (columns.map Column.cell).map String.toList, ',' ∉ cell := by
    intro cell hcell
    rw [List.map_map, List.mem_map] at hcell
    obtain ⟨column, hcolumn, rfl⟩ := hcell
    exact Column.not_mem_cell (by decide) (h column hcolumn).1
  have hsome : (columns.map Column.cell).map String.toList ≠ [] := by
    rw [List.map_map, ne_eq, List.map_eq_nil_iff]
    exact hne
  rw [Row.fields, body, String.toList_intercalate, show ",".toList = [','] from rfl,
    split_intercalate hsome hcells, List.map_map, List.map_map]
  refine List.map_congr_left fun column hcolumn => ?_
  show String.ofList (stripQuotes column.cell.toList) = column.text
  rw [stripQuotes_cell (h column hcolumn), String.ofList_toList]

/-! ### Rows as lines -/

theorem toList_line (columns : List Column) :
    (Row.line (columns.map Column.cell)).toList = (body columns).toList ++ ['\n'] := by
  rw [Row.line, String.toList_append]
  rfl

theorem hasLines_line {columns : List Column} (h : OneLine (body columns).toList) :
    HasLines (Row.line (columns.map Column.cell)).toList [(body columns).toList] := by
  rw [toList_line]
  exact h.hasLines

theorem getLast?_body {columns : List Column} {last : Column}
    (hlast : columns.getLast? = some last) (hne : last.cell.toList ≠ []) :
    (body columns).toList.getLast? = last.cell.toList.getLast? := by
  obtain ⟨front, rfl⟩ := List.getLast?_eq_some_iff.mp hlast
  rw [body, List.map_append, List.map_singleton]
  by_cases hfront : front = []
  · rw [hfront, List.map_nil, List.nil_append, String.intercalate_singleton]
  · rw [String.intercalate_append_of_ne_nil (by simpa using hfront) (List.cons_ne_nil _ _),
      String.intercalate_singleton, String.toList_append, List.getLast?_append_of_ne_nil _ hne]

/-- A row is one line if its columns hold no line feed and no carriage return ends the last one. -/
theorem oneLine_body {columns : List Column} {last : Column} {c : Char}
    (hlast : columns.getLast? = some last) (hend : last.cell.toList.getLast? = some c)
    (hc : c ≠ '\r') (hfeed : ∀ column ∈ columns, '\n' ∉ column.text.toList) :
    OneLine (body columns).toList := by
  have hne : last.cell.toList ≠ [] := by
    intro hnil
    rw [hnil] at hend
    cases hend
  refine ⟨?_, ?_⟩
  · rw [body, String.toList_intercalate]
    refine not_mem_intercalate (by decide) fun cell hcell => ?_
    rw [List.map_map, List.mem_map] at hcell
    obtain ⟨column, hcolumn, rfl⟩ := hcell
    exact Column.not_mem_cell (by decide) (hfeed column hcolumn)
  · rw [getLast?_body hlast hne, hend, ne_eq, Option.some.injEq]
    exact hc

end Row

/-! ### Numbers -/

namespace Text

/-- A text of digits, signs and points. -/
def Numeric (cs : List Char) : Prop :=
  ∀ c ∈ cs, c.isDigit = true ∨ c = '-' ∨ c = '+' ∨ c = '.'

theorem AllDigits.numeric {cs : List Char} (h : AllDigits cs) : Numeric cs :=
  fun c hc => Or.inl (h c hc)

theorem Numeric.append {front back : List Char} (hfront : Numeric front) (hback : Numeric back) :
    Numeric (front ++ back) :=
  List.forall_mem_append.mpr ⟨hfront, hback⟩

theorem Numeric.cons {c : Char} {cs : List Char}
    (hc : c.isDigit = true ∨ c = '-' ∨ c = '+' ∨ c = '.') (h : Numeric cs) : Numeric (c :: cs) :=
  List.forall_mem_cons.mpr ⟨hc, h⟩

theorem Numeric.not_mem {cs : List Char} (h : Numeric cs) {d : Char}
    (hd : ¬ (d.isDigit = true ∨ d = '-' ∨ d = '+' ∨ d = '.')) : d ∉ cs :=
  fun hmem => hd (h d hmem)

theorem Numeric.plain {s : String} (h : Numeric s.toList) : Row.Plain s := by
  have hquote : '"' ∉ s.toList := h.not_mem (by decide)
  exact ⟨h.not_mem (by decide), h.not_mem (by decide),
    fun hhead => hquote (List.mem_of_mem_head? hhead),
    fun hlast => hquote (List.mem_of_getLast? hlast)⟩

theorem numeric_yearText (year : Int) : Numeric (Calendar.yearText year) := by
  have hdigits := (allDigits_padded 4 year.natAbs).numeric
  unfold Calendar.yearText
  split
  · exact hdigits
  · exact hdigits.cons (by split <;> decide)

end Text

theorem Calendar.Date.numeric_compact (d : Date) : Numeric d.compact.toList := by
  rw [Date.compact, String.toList_ofList]
  exact ((numeric_yearText d.year).append (allDigits_padded 2 d.month).numeric).append
    (allDigits_padded 2 d.day).numeric

theorem numeric_sequenceNumber (place : Nat) : Numeric (sequenceNumber place).toList := by
  rw [sequenceNumber, String.toList_ofList]
  exact (allDigits_padded _ _).numeric

theorem Amount.numeric_exportText (a : Amount) : Numeric a.exportText.toList := by
  rw [a.toList_exportText]
  refine Numeric.append ?_ ((allDigits_wholeDigits _).numeric.append
    ((allDigits_placeDigits _).numeric.cons (by decide)))
  split
  · exact Numeric.cons (by decide) (by rintro c ⟨⟩)
  · rintro c ⟨⟩

/-! ### Columns of a transaction -/

namespace Layout

/-- The columns that all rows of a journal begin with. -/
def leader : List Column :=
  [.quoted "2", .quoted "000000", .quoted "00001"]

/-- The columns of a transaction's row at a place counted from 1.  Journals show the first sixty
characters of the description. -/
def columns (place : Nat) (t : Transaction) : Layout → List Column
  | .generalLedger =>
    leader ++
      [.quoted t.ledgerAccount, .bare t.amount.exportText,
        .quoted (String.ofList (t.description.toList.take 60)), .quoted t.ledgerReference,
        .quoted t.date.compact]
  | .sequencedLedger _ =>
    leader ++
      [.quoted (sequenceNumber place), .quoted (t.account.getD ""), .bare t.amount.exportText,
        .quoted (String.ofList (t.description.toList.take 60)), .quoted (t.reference.getD ""),
        .quoted t.date.compact]
  | .policyholderStatement format =>
    [.bare t.amount.exportText, .quoted t.description, .quoted t.statementReference,
      .quoted (format.write t.date)]

/-- The texts in a transaction's row that are as they were given. -/
def texts (t : Transaction) : Layout → List String
  | .generalLedger =>
    [t.ledgerAccount, String.ofList (t.description.toList.take 60), t.ledgerReference]
  | .sequencedLedger _ =>
    [t.account.getD "", String.ofList (t.description.toList.take 60), t.reference.getD ""]
  | .policyholderStatement format =>
    [t.description, t.statementReference, format.write t.date]

variable (layout : Layout) (place : Nat) (t : Transaction)

theorem row_eq_line :
    layout.row place t = Row.line ((layout.columns place t).map Column.cell) := by
  have hdescription : truncate descriptionWidth t.description =
      String.ofList (t.description.toList.take 60) := truncate_eq _ _
  cases layout with
  | generalLedger => rw [row, Row.ledger, hdescription]; rfl
  | sequencedLedger capacity => rw [row, Row.sequenced, hdescription]; rfl
  | policyholderStatement format => rfl

theorem columns_ne_nil : layout.columns place t ≠ [] := by
  cases layout <;> exact List.cons_ne_nil _ _

theorem getLast?_columns : ∃ s, (layout.columns place t).getLast? = some (.quoted s) := by
  cases layout <;> exact ⟨_, rfl⟩

theorem plain_columns (h : ∀ s ∈ layout.texts t, Row.Plain s) :
    ∀ column ∈ layout.columns place t, Row.Plain column.text := by
  have hleader : ∀ column ∈ leader, Row.Plain column.text := by decide
  cases layout with
  | generalLedger =>
      simp only [texts, List.forall_mem_cons] at h
      obtain ⟨haccount, hdescription, hreference, -⟩ := h
      refine List.forall_mem_append.mpr ⟨hleader, ?_⟩
      simp only [List.forall_mem_cons]
      exact ⟨haccount, t.amount.numeric_exportText.plain, hdescription, hreference,
        t.date.numeric_compact.plain, by rintro _ ⟨⟩⟩
  | sequencedLedger capacity =>
      simp only [texts, List.forall_mem_cons] at h
      obtain ⟨haccount, hdescription, hreference, -⟩ := h
      refine List.forall_mem_append.mpr ⟨hleader, ?_⟩
      simp only [List.forall_mem_cons]
      exact ⟨(numeric_sequenceNumber place).plain, haccount, t.amount.numeric_exportText.plain,
        hdescription, hreference, t.date.numeric_compact.plain, by rintro _ ⟨⟩⟩
  | policyholderStatement format =>
      simp only [texts, List.forall_mem_cons] at h
      obtain ⟨hdescription, hreference, hdate, -⟩ := h
      simp only [columns, List.forall_mem_cons]
      exact ⟨t.amount.numeric_exportText.plain, hdescription, hreference, hdate, by rintro _ ⟨⟩⟩

end Layout

/-! ### The lines before the rows -/

namespace Heading

/-- The columns of the row that shows the heading. -/
def columns (heading : Heading) : List Column :=
  [.quoted "1", .quoted "000000", .quoted "00001", .quoted "", .quoted "GL", .quoted "JE",
    .quoted (String.ofList (integer heading.year)),
    .quoted (String.ofList (padded 2 heading.period)), .bare "0", .quoted heading.description,
    .quoted "00", .bare "0", .bare "0", .bare "0", .bare "2"]

theorem summaryRow_eq_line (heading : Heading) :
    heading.summaryRow = Row.line (heading.columns.map Column.cell) :=
  rfl

theorem oneLine_summaryRow {heading : Heading} (h : '\n' ∉ heading.description.toList) :
    OneLine (Row.body heading.columns).toList := by
  have hlast : heading.columns.getLast? = some (.bare "2") := rfl
  refine Row.oneLine_body hlast (show _ = some '2' from rfl) (by decide) ?_
  have hyear : '\n' ∉ (integer heading.year) := by
    unfold integer
    have hdigits := allDigits_digits heading.year.natAbs
    split
    · rw [List.mem_cons, not_or]
      exact ⟨by decide, hdigits.not_mem (by decide)⟩
    · exact hdigits.not_mem (by decide)
  have hperiod : '\n' ∉ padded 2 heading.period :=
    (allDigits_padded 2 heading.period).not_mem (by decide)
  simp only [columns, List.forall_mem_cons, Column.text, String.toList_ofList]
  refine ⟨?_, ?_, ?_, ?_, ?_, ?_, hyear, hperiod, ?_, h, ?_, ?_, ?_, ?_, ?_, by rintro _ ⟨⟩⟩
  all_goals decide

end Heading

namespace Row

theorem exists_hasLines_names {names : List String} (hne : names ≠ [])
    (hfeed : ∀ name ∈ names, '\n' ∉ name.toList) :
    ∃ line, HasLines (Row.line (names.map Row.cell)).toList [line] := by
  have hcells : names.map Row.cell = (names.map Column.quoted).map Column.cell := by
    rw [List.map_map]
    rfl
  have hlast : (names.map Column.quoted).getLast? = some (.quoted (names.getLast hne)) := by
    rw [List.getLast?_map, List.getLast?_eq_some_getLast hne, Option.map_some]
  rw [hcells]
  refine ⟨_, hasLines_line (oneLine_body hlast (Column.getLast?_cell_quoted _) (by decide) ?_)⟩
  intro column hcolumn
  obtain ⟨name, hname, rfl⟩ := List.mem_map.mp hcolumn
  exact hfeed name hname

end Row

/-- The lines before the rows of a journal: two of names, and the heading. -/
theorem Heading.hasLines_journal {heading : Heading} (h : '\n' ∉ heading.description.toList)
    {names : String} (hnames : ∃ line, HasLines names.toList [line]) :
    ∃ heads, HasLines (Heading.batchColumns ++ names ++ heading.summaryRow).toList heads ∧
      heads.length = 3 := by
  obtain ⟨first, hfirst⟩ : ∃ line, HasLines Heading.batchColumns.toList [line] :=
    Row.exists_hasLines_names (List.cons_ne_nil _ _) (by decide)
  obtain ⟨second, hsecond⟩ := hnames
  have hthird := Row.hasLines_line (Heading.oneLine_summaryRow h)
  have hlines := (hfirst.append hsecond).append hthird
  rw [← heading.summaryRow_eq_line, ← String.toList_append, ← String.toList_append] at hlines
  exact ⟨_, hlines, rfl⟩

theorem Layout.hasLines_preamble (layout : Layout) {heading : Heading}
    (h : layout.destination.isLedger = true → '\n' ∉ heading.description.toList) :
    ∃ heads, HasLines (layout.preamble heading).toList heads ∧
      heads.length = layout.destination.preambleLines := by
  cases layout with
  | generalLedger =>
      have hnames : ∃ line, HasLines Heading.ledgerColumns.toList [line] :=
        Row.exists_hasLines_names (List.cons_ne_nil _ _) (by decide)
      exact Heading.hasLines_journal (h rfl) hnames
  | sequencedLedger capacity =>
      have hnames : ∃ line, HasLines Heading.sequencedColumns.toList [line] :=
        Row.exists_hasLines_names (List.cons_ne_nil _ _) (by decide)
      exact Heading.hasLines_journal (h rfl) hnames
  | policyholderStatement format =>
      obtain ⟨line, hline⟩ : ∃ line, HasLines Heading.statementColumns.toList [line] :=
        Row.exists_hasLines_names (List.cons_ne_nil _ _) (by decide)
      exact ⟨_, hline, rfl⟩

/-! ### Batches -/

namespace Batch

/-- A batch of which the file shows everything without loss. -/
structure Plain (batch : Batch) : Prop where
  texts : ∀ t ∈ batch.toList, ∀ s ∈ batch.layout.texts t, Row.Plain s
  heading : batch.destination.isLedger = true → '\n' ∉ batch.heading.description.toList

/-- The columns of the rows. -/
def columns (batch : Batch) : List (List Column) :=
  batch.toList.mapIdx (fun i t => batch.layout.columns (i + 1) t)

theorem map_columns {β : Type} (batch : Batch) (f : List Column → β) :
    batch.columns.map f = batch.toList.mapIdx (fun i t => f (batch.layout.columns (i + 1) t)) := by
  refine (List.mapIdx_eq_iff.mpr fun i => ?_).symm
  rw [columns, List.getElem?_map, List.getElem?_mapIdx, Option.map_map]
  rfl

theorem rows_eq_lines (batch : Batch) :
    batch.rows = batch.columns.map (fun columns => Row.line (columns.map Column.cell)) := by
  rw [map_columns, rows]
  exact List.mapIdx_eq_mapIdx_iff.mpr fun i hi => batch.layout.row_eq_line _ _

theorem length_columns (batch : Batch) : batch.columns.length = batch.size :=
  List.length_mapIdx

theorem Plain.columns {batch : Batch} (h : batch.Plain) {columns : List Column}
    (hmem : columns ∈ batch.columns) :
    columns ≠ [] ∧ (∃ s, columns.getLast? = some (.quoted s)) ∧
      ∀ column ∈ columns, Row.Plain column.text := by
  obtain ⟨i, hi, rfl⟩ := List.mem_mapIdx.mp hmem
  exact ⟨batch.layout.columns_ne_nil _ _, batch.layout.getLast?_columns _ _,
    batch.layout.plain_columns _ _ (h.texts _ (List.getElem_mem hi))⟩

theorem hasLines_rows {batch : Batch} (h : batch.Plain) :
    HasLines (String.join batch.rows).toList
      (batch.columns.map (fun columns => (Row.body columns).toList)) := by
  refine ⟨?_, fun line hline => ?_⟩
  · rw [rows_eq_lines, String.toList_join, List.flatMap_map, List.flatMap_map]
    simp only [Row.toList_line]
  · obtain ⟨columns, hcolumns, rfl⟩ := List.mem_map.mp hline
    obtain ⟨-, ⟨s, hlast⟩, hplain⟩ := h.columns hcolumns
    exact Row.oneLine_body hlast (Column.getLast?_cell_quoted s) (by decide)
      fun column hcolumn => (hplain column hcolumn).2.1

/-- **The rows of a batch file are found again.** -/
theorem rows_render {batch : Batch} (h : batch.Plain) :
    batch.render.rows batch.destination = batch.columns.map Row.body := by
  obtain ⟨heads, hheads, hlength⟩ := batch.layout.hasLines_preamble h.heading
  have hlines := (hheads.append (hasLines_rows h)).lineList
  rw [← String.toList_append] at hlines
  rw [Payload.rows, lines]
  show ((lineList [] (_ ++ _ : String).toList).map String.ofList).drop _ = _
  rw [hlines, List.map_append, List.drop_left']
  · rw [List.map_map]
    refine List.map_congr_left fun columns _ => ?_
    rw [Function.comp_apply, String.ofList_toList]
  · rw [List.length_map]
    exact hlength

/-- **A batch file is read back column by column**: it has a row for each transaction, in their
order, and the fields of the row are the transaction's columns. -/
theorem fields_render {batch : Batch} (h : batch.Plain) :
    (batch.render.rows batch.destination).length = batch.size ∧
      (batch.render.rows batch.destination).map Row.fields =
        batch.toList.mapIdx
          (fun i t => (batch.layout.columns (i + 1) t).map Column.text) := by
  rw [rows_render h, ← map_columns, List.length_map, length_columns, List.map_map]
  refine ⟨rfl, List.map_congr_left fun columns hcolumns => ?_⟩
  obtain ⟨hne, -, hplain⟩ := h.columns hcolumns
  exact Row.fields_body hne hplain

/-- The sample transactions, in a journal with numbered rows. -/
def sample : Batch :=
  ((Batch.new (.sequencedLedger .full) ⟨9, 2020, "September 2020 CoverApp JE"⟩).extend
    Sample.mixedSet).1

theorem sample_plain : sample.Plain :=
  ⟨by decide, by decide⟩

theorem fields_render_sample :
    sample.Plain ∧
      (sample.render.rows .sequencedLedger).map Row.fields =
        [["2", "000000", "00001", "0000000020", "", "-1.50", "Household premium", "",
            "20200915"],
          ["2", "000000", "00001", "0000000040", "", "25.00", "Commercial claim", "",
            "20200915"]] := by
  refine ⟨sample_plain, (fields_render sample_plain).2.trans ?_⟩
  decide

end Batch

end Posting
