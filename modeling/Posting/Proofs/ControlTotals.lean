import Mathlib.Tactic
import Posting.Proofs.DecimalSums
import Posting.Proofs.History
import Posting.Proofs.RowReading

/-! # Control totals

A batch reports how many rows it has and what their amounts come to; a batch file shows each amount
in its row.  The two are made in different ways, the one by adding decimals and the other by writing
digits, and agree (`Batch.Reconciles`).

`Opening.control_total` says so of every batch that a history can lead to, if it holds fewer than
`2 ^ 33` rows, with what follows from it: neither the order of the transactions nor those without an
amount change the summary. -/

namespace Posting

open Number

/-! ### Amounts in rows -/

def Layout.amountColumn : Layout → Nat
  | .generalLedger => 4
  | .sequencedLedger _ => 5
  | .policyholderStatement _ => 0

/-- The number that the columns of a row show as the amount. -/
def Layout.shownAmount? (layout : Layout) (columns : List Column) : Option ℚ :=
  columns[layout.amountColumn]?.bind (fun column => Text.value? column.text.toList)

theorem Layout.getElem?_amountColumn (layout : Layout) (place : Nat) (t : Transaction) :
    (layout.columns place t)[layout.amountColumn]? = some (.bare t.amount.exportText) := by
  cases layout <;> rfl

theorem Layout.shownAmount?_columns (layout : Layout) (place : Nat) (t : Transaction) :
    layout.shownAmount? (layout.columns place t) = some (-(t.amount.minor : ℚ) / 100) := by
  rw [shownAmount?, layout.getElem?_amountColumn, Option.bind_some]
  exact t.amount.value?_exportText

namespace Batch

def amounts (batch : Batch) : List Amount :=
  batch.toList.map Transaction.amount

theorem total_summary (batch : Batch) :
    batch.summary.total = Decimal.sum? (batch.amounts.map Amount.negated) := by
  rw [amounts, List.map_map]
  rfl

theorem length_amounts (batch : Batch) : batch.amounts.length = batch.size := by
  rw [amounts, List.length_map, length_toList]

theorem map_shownAmount? (batch : Batch) :
    batch.columns.map batch.layout.shownAmount? =
      (batch.amounts.map (fun a => -(a.minor : ℚ) / 100)).map some := by
  rw [map_columns, amounts, List.map_map, List.map_map]
  refine List.mapIdx_eq_iff.mpr fun i => ?_
  rw [List.getElem?_map]
  congr 1
  funext t
  exact (batch.layout.shownAmount?_columns (i + 1) t).symm

/-- What a batch reports agrees with what its file shows. -/
structure Reconciles (batch : Batch) : Prop where
  /-- The file is the text before the rows, and the cells of each row. -/
  written : batch.render.text = batch.layout.preamble batch.heading ++
    String.join (batch.columns.map (fun columns => Row.line (columns.map Column.cell)))
  /-- As many rows are reported as are written. -/
  rows : batch.summary.rows = batch.columns.length
  /-- The first so many amounts are added exactly, however many they are. -/
  partials : ∀ count, ∃ d, Decimal.sum? ((batch.amounts.take count).map Amount.negated) = some d ∧
    d.value = (Amount.ledgerTotal (batch.amounts.take count) : ℚ) / 100
  /-- The total is the sum of the amounts that the rows show. -/
  total : ∃ (d : Decimal) (shown : List ℚ), batch.summary.total = some d ∧
    batch.columns.map batch.layout.shownAmount? = shown.map some ∧ d.value = shown.sum ∧
      d.value = (Amount.ledgerTotal batch.amounts : ℚ) / 100

theorem reconciles {batch : Batch} (hne : ∀ a ∈ batch.amounts, a.minor ≠ 0)
    (hsize : batch.size < 0x200000000) : batch.Reconciles := by
  rw [← length_amounts] at hsize
  refine ⟨?_, ?_, fun count => ?_, ?_⟩
  · rw [← rows_eq_lines]
    rfl
  · rw [length_columns]
    rfl
  · refine Amount.value_sum?_negated (fun a ha => hne a (List.mem_of_mem_take ha)) ?_
    rw [List.length_take]
    omega
  · obtain ⟨d, hd, hvalue⟩ := Amount.value_sum?_negated hne hsize
    refine ⟨d, _, batch.total_summary.trans hd, batch.map_shownAmount?, ?_, hvalue⟩
    rw [hvalue, Amount.ledgerTotal_div]

theorem summary_perm {batch other : Batch} (hne : ∀ a ∈ batch.amounts, a.minor ≠ 0)
    (hsize : batch.size < 0x200000000) (h : other.toList.Perm batch.toList) :
    other.summary = batch.summary := by
  have hrows : other.size = batch.size := by
    rw [← length_toList, h.length_eq, length_toList]
  have htotal : other.summary.total = batch.summary.total := by
    rw [← length_amounts] at hsize
    rw [total_summary, total_summary]
    exact (Amount.sum?_negated_perm hne hsize (h.map Transaction.amount).symm).symm
  show Summary.mk other.size other.summary.total = Summary.mk batch.size batch.summary.total
  rw [hrows, htotal]

end Batch

theorem minor_ne_zero_of_mem_exportable {ts : List Transaction} {t : Transaction}
    (h : t ∈ exportable ts) : t.amount.minor ≠ 0 := by
  have hexportable : t.isExportable = true := (List.mem_filter.mp h).2
  intro hzero
  rw [Transaction.isExportable, Amount.isZero, hzero] at hexportable
  cases hexportable

theorem Opening.minor_ne_zero (opening : Opening) (heading : Heading)
    (operations : List Operation) :
    ∀ a ∈ ((opening.batch heading).run operations).amounts, a.minor ≠ 0 := by
  intro a ha
  obtain ⟨t, ht, rfl⟩ := List.mem_map.mp ha
  rw [opening.toList_run] at ht
  exact minor_ne_zero_of_mem_exportable (mem_of_mem_upTo ht)

/-- **The control total of a batch.**  Whatever history a batch has, if it holds fewer than
`2 ^ 33` rows, it reports what its file shows, and the same as every other batch with the same
transactions in some order, or with the same history but for transactions without an amount. -/
theorem Opening.control_total (opening : Opening) (heading : Heading)
    (operations : List Operation)
    (hsize : ((opening.batch heading).run operations).size < 0x200000000) :
    ((opening.batch heading).run operations).Reconciles ∧
      (∀ (opening' : Opening) (heading' : Heading) (operations' : List Operation),
        ((opening'.batch heading').run operations').toList.Perm
            ((opening.batch heading).run operations).toList →
          ((opening'.batch heading').run operations').summary =
            ((opening.batch heading).run operations).summary) ∧
      ∀ operations', exportable (handed operations') = exportable (handed operations) →
        ((opening.batch heading).run operations').summary =
          ((opening.batch heading).run operations).summary := by
  have hne := opening.minor_ne_zero heading operations
  refine ⟨Batch.reconciles hne hsize, fun opening' heading' operations' hperm => ?_,
    fun operations' hsame => ?_⟩
  · exact Batch.summary_perm hne hsize hperm
  · refine Batch.summary_perm hne hsize ?_
    rw [opening.toList_run, opening.toList_run, hsame]

/-- A premium and a refund, in either order. -/
theorem Opening.control_total_of_two :
    let batch := ((Opening.ofRows 5).batch ⟨9, 2020, ""⟩).run [.extend Sample.mixedSet]
    let other := ((Opening.ofRows 2).batch ⟨10, 2020, ""⟩).run
      [.append Sample.commercialClaim, .append Sample.zeroAdjustment,
        .append Sample.householdPremium]
    batch.size < 0x200000000 ∧ batch.Reconciles ∧ other.summary = batch.summary := by
  intro batch other
  have hsize : batch.size < 0x200000000 := by decide
  have hperm : other.toList.Perm batch.toList := by decide
  obtain ⟨hreconciles, horder, -⟩ := Opening.control_total _ _ _ hsize
  exact ⟨hsize, hreconciles, horder _ _ _ hperm⟩

end Posting
