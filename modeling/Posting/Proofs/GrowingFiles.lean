import Posting.Proofs.BatchFiles

/-! # Files of growing batches

While a batch takes transactions, its file grows at the end and nowhere else: what was rendered
before stays as it is, and a row follows for each transaction taken since.

* `Batch.text_of_toList_append` is the file of a batch that holds more than another one.
* `Batch.bytes_run` says it of two moments of a history, in bytes.
* `Batch.endsLine_render`: whatever a batch holds, its file ends with one line feed.

`Batch.bytes_grow` puts these together. -/

namespace Posting

/-- The bytes of a payload, which are those of the file. -/
def Payload.bytes (payload : Payload) : ByteArray :=
  payload.text.toUTF8

/-- Bytes that end with a line feed and have no other one before it. -/
def EndsLine (bytes : ByteArray) : Prop :=
  ∃ (front : ByteArray) (last : UInt8), bytes = front ++ ⟨#[last, 10]⟩ ∧ last ≠ 10

/-! ### Rows behind others -/

theorem mapIdx_const {α β : Type} (f : α → β) (list : List α) :
    list.mapIdx (fun _ a => f a) = list.map f := by
  refine List.mapIdx_eq_iff.mpr fun i => ?_
  rw [List.getElem?_map]

/-- The rows of transactions that come after so many others. -/
def Layout.rowsAfter (held : Nat) (ts : List Transaction) : Layout → List String
  | .generalLedger => ts.map Row.ledger
  | .sequencedLedger _ => ts.mapIdx (fun i t => Row.sequenced (held + i + 1) t)
  | .policyholderStatement format => ts.map (Row.statement format)

theorem Layout.rowsAfter_eq (layout : Layout) (held : Nat) (ts : List Transaction) :
    layout.rowsAfter held ts = ts.mapIdx (fun i t => layout.row (held + i + 1) t) := by
  cases layout with
  | generalLedger => exact (mapIdx_const Row.ledger ts).symm
  | sequencedLedger capacity => rfl
  | policyholderStatement format => exact (mapIdx_const (Row.statement format) ts).symm

namespace Batch

section

variable {batch later : Batch} {kept : List Transaction}

theorem rows_of_toList_append (hlayout : later.layout = batch.layout)
    (hlist : later.toList = batch.toList ++ kept) :
    later.rows = batch.rows ++ batch.layout.rowsAfter batch.size kept := by
  have hplace (i : Nat) : i + batch.toList.length + 1 = batch.size + i + 1 := by
    rw [length_toList]
    omega
  rw [rows, rows, hlayout, hlist, List.mapIdx_append, Layout.rowsAfter_eq]
  simp only [hplace]

theorem text_of_toList_append (hlayout : later.layout = batch.layout)
    (hheading : later.heading = batch.heading) (hlist : later.toList = batch.toList ++ kept) :
    later.render.text =
      batch.render.text ++ String.join (batch.layout.rowsAfter batch.size kept) := by
  have hrows := rows_of_toList_append hlayout hlist
  show later.layout.preamble later.heading ++ String.join later.rows =
    batch.layout.preamble batch.heading ++ String.join batch.rows ++ _
  rw [hlayout, hheading, hrows, String.join_append, String.append_assoc]

end

/-! ### Histories -/

theorem run_append (batch : Batch) (done more : List Operation) :
    batch.run (done ++ more) = (batch.run done).run more :=
  List.foldl_append

/-- **The bytes of the file after more operations** are those before, and those of the rows of what
was taken since. -/
theorem bytes_run (batch : Batch) (more : List Operation) :
    (batch.run more).render.bytes = batch.render.bytes ++
      (String.join (batch.layout.rowsAfter batch.size
        (upTo batch.room? (exportable (handed more))))).toUTF8 := by
  have htext := text_of_toList_append (batch.layout_run more) (batch.heading_run more)
    (batch.toList_run more)
  show (batch.run more).render.text.toByteArray = _
  rw [htext, String.toByteArray_append]
  rfl

theorem apply_append_of_not_taken {batch : Batch} {t : Transaction}
    (h : ((Operation.append t).apply batch).2.isSome ∨ t.isExportable = false) :
    ((Operation.append t).apply batch).1 = batch := by
  rcases h with hrefused | hzero
  · exact Operation.apply_append_of_refused hrefused
  · have hnone : batch.refusal? t = none := by
      simp [refusal?, hzero]
    simp [Operation.apply, append, hnone, push, hzero]

/-! ### Ends of files -/

/-- A text of which the last line ends with a quote or a two, and with its line feed. -/
def ClosesLine (text : String) : Prop :=
  ∃ front, ∃ c ∈ ['"', '2'], text = front ++ String.ofList [c, '\n']

theorem ClosesLine.append {back : String} (h : ClosesLine back) (front : String) :
    ClosesLine (front ++ back) := by
  obtain ⟨between, c, hc, rfl⟩ := h
  exact ⟨front ++ between, c, hc, String.append_assoc.symm⟩

theorem ClosesLine.endsLine {text : String} (h : ClosesLine text) : EndsLine text.toUTF8 := by
  obtain ⟨front, c, hc, rfl⟩ := h
  simp only [List.mem_cons, List.not_mem_nil, or_false] at hc
  rcases hc with rfl | rfl
  · exact ⟨front.toUTF8, 34, String.toByteArray_append, by decide⟩
  · exact ⟨front.toUTF8, 50, String.toByteArray_append, by decide⟩

theorem closesLine_line {columns : List Column} {last : Column} {c : Char}
    (hlast : columns.getLast? = some last) (hend : last.cell.toList.getLast? = some c)
    (hc : c ∈ ['"', '2']) : ClosesLine (Row.line (columns.map Column.cell)) := by
  have hne : last.cell.toList ≠ [] := by
    intro hnil
    rw [hnil] at hend
    cases hend
  have hbody := Row.getLast?_body hlast hne
  rw [hend] at hbody
  obtain ⟨front, hfront⟩ := List.getLast?_eq_some_iff.mp hbody
  refine ⟨String.ofList front, c, hc, ?_⟩
  rw [← String.toList_inj, Row.toList_line, hfront, String.toList_append, String.toList_ofList,
    String.toList_ofList, List.append_assoc]
  rfl

theorem closesLine_row (layout : Layout) (place : Nat) (t : Transaction) :
    ClosesLine (layout.row place t) := by
  obtain ⟨s, hs⟩ := layout.getLast?_columns place t
  rw [layout.row_eq_line]
  exact closesLine_line hs (Column.getLast?_cell_quoted s) (by decide)

theorem closesLine_preamble (layout : Layout) (heading : Heading) :
    ClosesLine (layout.preamble heading) := by
  have hsummary : ClosesLine heading.summaryRow := by
    have hlast : heading.columns.getLast? = some (.bare "2") := rfl
    rw [heading.summaryRow_eq_line]
    exact closesLine_line hlast rfl (by decide)
  cases layout with
  | generalLedger => exact hsummary.append _
  | sequencedLedger capacity => exact hsummary.append _
  | policyholderStatement format =>
      have hcolumns : Heading.statementColumns =
          "\"Amount\",\"Description\",\"Reference\",\"Date Entered" ++
            String.ofList ['"', '\n'] := by
        decide +kernel
      exact ⟨_, '"', by decide, hcolumns⟩

/-- **A file ends with one line feed**, whatever the batch holds. -/
theorem endsLine_render (batch : Batch) : EndsLine batch.render.bytes := by
  refine ClosesLine.endsLine ?_
  show ClosesLine (batch.layout.preamble batch.heading ++ String.join batch.rows)
  rcases List.eq_nil_or_concat' batch.rows with hnil | ⟨front, row, hconcat⟩
  · rw [hnil]
    have hpreamble := closesLine_preamble batch.layout batch.heading
    rwa [show String.join [] = "" from rfl, String.append_empty]
  · have hmem : row ∈ batch.rows := by
      rw [hconcat]
      exact List.mem_append_right _ List.mem_cons_self
    obtain ⟨i, hi, rfl⟩ := List.mem_mapIdx.mp hmem
    have hrow := closesLine_row batch.layout (i + 1) batch.toList[i]
    rw [hconcat, String.join_append, show String.join [_] = _ from String.empty_append]
    exact (hrow.append _).append _

/-- **Files grow at their end.**  Between two moments of a history the bytes of the file stay, and
those of the rows of what was taken in between follow, in the order in which it came and numbered on
from the rows that were there.  A transaction that is refused or has no amount leaves the bytes as
they are, and at every moment they end with one line feed. -/
theorem bytes_grow (batch : Batch) (done more : List Operation) :
    let earlier := batch.run done
    let later := batch.run (done ++ more)
    (∃ kept, later.toList = earlier.toList ++ kept ∧
      kept = upTo earlier.room? (exportable (handed more)) ∧
      later.render.bytes = earlier.render.bytes ++
        (String.join (batch.layout.rowsAfter earlier.size kept)).toUTF8) ∧
      (∀ t, ((Operation.append t).apply earlier).2.isSome ∨ t.isExportable = false →
        ((Operation.append t).apply earlier).1.render.bytes = earlier.render.bytes) ∧
      EndsLine earlier.render.bytes := by
  intro earlier later
  have hlater : later = earlier.run more := batch.run_append done more
  refine ⟨⟨_, ?_, rfl, ?_⟩, fun t ht => ?_, earlier.endsLine_render⟩
  · rw [hlater, earlier.toList_run]
  · rw [hlater, earlier.bytes_run, batch.layout_run]
  · rw [apply_append_of_not_taken ht]

/-- A second row is taken and a third one refused; what has no amount leaves no row. -/
theorem bytes_grow_of_two_rows :
    let batch := (Opening.ofRows 2).batch ⟨9, 2020, "September\n"⟩
    let done : List Operation := [.append Sample.householdPremium]
    let full := batch.run (done ++ [.extend [Sample.zeroAdjustment, Sample.commercialClaim]])
    full.render.bytes = (batch.run done).render.bytes ++
        (Row.sequenced 2 Sample.commercialClaim).toUTF8 ∧
      ((Operation.append Sample.householdPremium).apply full).2.isSome ∧
      ((Operation.append Sample.householdPremium).apply full).1.render.bytes =
        full.render.bytes ∧
      EndsLine full.render.bytes := by
  intro batch done full
  have hfull : ((Operation.append Sample.householdPremium).apply full).2.isSome := by decide
  obtain ⟨⟨kept, -, hkept, hbytes⟩, -, -⟩ :=
    bytes_grow batch done [.extend [Sample.zeroAdjustment, Sample.commercialClaim]]
  obtain ⟨-, hsame, hends⟩ :=
    bytes_grow batch (done ++ [.extend [Sample.zeroAdjustment, Sample.commercialClaim]]) []
  have hclaim : kept = [Sample.commercialClaim] := hkept.trans (by decide)
  have hsize : (batch.run done).size = 1 := by decide
  have hrow : String.join (batch.layout.rowsAfter 1 [Sample.commercialClaim]) =
      Row.sequenced 2 Sample.commercialClaim := String.empty_append
  rw [hclaim, hsize, hrow] at hbytes
  exact ⟨hbytes, hfull, hsame _ (Or.inl hfull), hends⟩

end Batch

end Posting
