import Posting.Proofs.ControlTotals

/-! # What the layouts have in common

Each layout has rows of its own, made from a transaction by a function of its own.  They agree on
what they share:

* The journal with numbered rows is the plain one with a cell more, as far as a transaction has an
  account and a reference of its own (`Row.withoutCell_sequenced`).
* A reference of its own stands in every row as it is, and the rest of the row does not depend on it
  (`Layout.row_of_reference`).
* References that are made up differ by the entity or the household only
  (`Transaction.statementReference_of_entity`, `Transaction.statementReference_of_household`).
* Batches that have room for what they are handed hold the same transactions, report the same and
  show the same amounts (`Opening.agrees_extend`).

`layouts_agree` puts these together. -/

namespace Posting

open Calendar Text

/-! ### Rows without one of their cells -/

namespace Row

/-- A row without the text between two of its commas, of which so many stand before it. -/
def withoutCell (place : Nat) (row : String) : String :=
  String.ofList ([','].intercalate ((split ',' row.toList).eraseIdx place))

theorem line_cons (cell : String) {cells : List String} (hne : cells ≠ []) :
    line (cell :: cells) = cell ++ "," ++ line cells := by
  rw [line, String.intercalate_cons_of_ne_nil hne, line]
  simp only [String.append_assoc]

theorem split_line {front : List String} (hfront : ∀ cell ∈ front, ',' ∉ cell.toList)
    {back : List String} (hne : back ≠ []) :
    split ',' (line (front ++ back)).toList =
      front.map String.toList ++ split ',' (line back).toList := by
  induction front with
  | nil => rfl
  | cons cell front ih =>
      have hcell : split ',' cell.toList = [cell.toList] := by
        have h := split_intercalate (List.cons_ne_nil cell.toList [])
          (List.forall_mem_singleton.mpr (hfront cell List.mem_cons_self))
        rwa [List.intercalate_singleton] at h
      have hrest := ih fun other hother => hfront other (List.mem_cons_of_mem cell hother)
      have htext : (line (cell :: (front ++ back))).toList =
          cell.toList ++ ',' :: (line (front ++ back)).toList := by
        rw [line_cons cell (List.append_ne_nil_of_right_ne_nil front hne)]
        simp
      rw [List.cons_append, htext, split_append_cons, hcell, hrest, List.map_cons,
        List.singleton_append, List.cons_append]

/-- **A cell is taken out of a row** if neither it nor those before it hold a comma; those behind it
may. -/
theorem withoutCell_line {front : List String} (hfront : ∀ cell ∈ front, ',' ∉ cell.toList)
    {cell : String} (hcell : ',' ∉ cell.toList) {back : List String} (hne : back ≠ []) :
    withoutCell front.length (line (front ++ cell :: back)) = line (front ++ back) := by
  have hlong : ∀ other ∈ front ++ [cell], ',' ∉ other.toList :=
    List.forall_mem_append.mpr ⟨hfront, List.forall_mem_singleton.mpr hcell⟩
  have hparts : (split ',' (line (front ++ cell :: back)).toList).eraseIdx front.length =
      split ',' (line (front ++ back)).toList := by
    rw [← List.singleton_append, ← List.append_assoc, split_line hlong hne, split_line hfront hne,
      List.map_append, List.append_assoc,
      List.eraseIdx_append_of_length_le (by rw [List.length_map])]
    simp
  rw [withoutCell, hparts, intercalate_split, String.ofList_toList]

theorem withoutCell_sequenced {t : Transaction} {account reference : String}
    (haccount : t.account = some account) (hreference : t.reference = some reference)
    (place : Nat) : withoutCell leader.length (sequenced place t) = ledger t := by
  have hleader : ∀ cell ∈ leader, ',' ∉ cell.toList := by decide
  have hnumber : ',' ∉ (cell (sequenceNumber place)).toList := by
    show ',' ∉ (Column.quoted (sequenceNumber place)).cell.toList
    exact Column.not_mem_cell (by decide) ((numeric_sequenceNumber place).not_mem (by decide))
  rw [sequenced, withoutCell_line hleader hnumber (List.cons_ne_nil _ _), ledger,
    Transaction.ledgerAccount, Transaction.ledgerReference, haccount, hreference]
  rfl

end Row

/-! ### References -/

namespace Layout

def referenceColumn : Layout → Nat
  | .generalLedger => 6
  | .sequencedLedger _ => 7
  | .policyholderStatement _ => 2

/-- The text that rows show as the reference of a transaction. -/
def reference (t : Transaction) : Layout → String
  | .generalLedger => t.ledgerReference
  | .sequencedLedger _ => t.reference.getD ""
  | .policyholderStatement _ => t.statementReference

/-- **A reference of its own stands in the row as it is**, whatever it holds, behind as many cells
as the layout has before it; nothing else in the row depends on it. -/
theorem row_of_reference (layout : Layout) (place : Nat) (t : Transaction) :
    ∃ front back : List String, front.length = layout.referenceColumn ∧
      layout.row place t = Row.line (front ++ Row.cell (layout.reference t) :: back) ∧
      ∀ reference : String, layout.row place { t with reference := some reference } =
        Row.line (front ++ Row.cell reference :: back) := by
  cases layout with
  | generalLedger =>
      refine ⟨Row.leader ++ [Row.cell t.ledgerAccount, t.amount.exportText,
        Row.cell (truncate descriptionWidth t.description)], [Row.cell t.date.compact], rfl, rfl,
        ?_⟩
      intro reference
      rfl
  | sequencedLedger capacity =>
      refine ⟨Row.leader ++ [Row.cell (sequenceNumber place), Row.cell (t.account.getD ""),
        t.amount.exportText, Row.cell (truncate descriptionWidth t.description)],
        [Row.cell t.date.compact], rfl, rfl, ?_⟩
      intro reference
      rfl
  | policyholderStatement format =>
      refine ⟨[t.amount.exportText, Row.cell t.description], [Row.cell (format.write t.date)], rfl,
        rfl, ?_⟩
      intro reference
      rfl

end Layout

namespace Transaction

theorem withSuffix_append (front base suffix : String) :
    withSuffix (front ++ base) suffix = front ++ withSuffix base suffix := by
  unfold withSuffix
  split
  · rfl
  · simp only [String.append_assoc]

theorem withSuffix_eq (base suffix : String) :
    withSuffix base suffix = base ++ withSuffix "" suffix := by
  rw [← withSuffix_append, String.append_empty]

variable {t : Transaction}

theorem statementReference_of_entity (hreference : t.reference = none)
    (hkind : t.isHousehold = false) :
    t.statementReference = t.entityCode ++ " " ++ t.ledgerReference := by
  rw [statementReference, ledgerReference, hreference, Option.getD_none, Option.getD_none, hkind,
    if_neg Bool.false_ne_true, if_neg Bool.false_ne_true, withSuffix_append]

theorem statementReference_of_household (hreference : t.reference = none)
    (hkind : t.isHousehold = true) :
    ∃ rest, t.ledgerReference = "MC" ++ rest ∧
      t.statementReference = "MC " ++ t.householdId ++ rest := by
  refine ⟨withSuffix "" t.name, ?_, ?_⟩
  · rw [ledgerReference, hreference, Option.getD_none, if_pos hkind, withSuffix_eq]
  · rw [statementReference, hreference, Option.getD_none, if_pos hkind, withSuffix_eq]

end Transaction

/-! ### Batches -/

namespace Batch

/-- The rows of a batch, and of its file, are the lines of its columns. -/
structure ShowsColumns (batch : Batch) : Prop where
  rows : batch.rows = batch.columns.map (fun columns => Row.body columns ++ "\n")
  file : batch.render.text = batch.layout.preamble batch.heading ++ String.join batch.rows

theorem showsColumns (batch : Batch) : batch.ShowsColumns where
  rows := batch.rows_eq_lines
  file := rfl

/-- What the columns at a place, counted from 0, show as the amount. -/
def shownAmount? (batch : Batch) (i : Nat) : Option String :=
  batch.columns[i]?.bind fun columns => columns[batch.layout.amountColumn]?.map Column.cell

theorem shownAmount?_eq (batch : Batch) (i : Nat) :
    batch.shownAmount? i = batch.toList[i]?.map (fun t => t.amount.exportText) := by
  rw [shownAmount?, columns, List.getElem?_mapIdx]
  cases batch.toList[i]? with
  | none => rfl
  | some t =>
      rw [Option.map_some, Option.bind_some, batch.layout.getElem?_amountColumn, Option.map_some]
      rfl

/-- What two batches of different layouts can have in common. -/
structure Agrees (batch other : Batch) : Prop where
  /-- Their rows show their columns. -/
  shown : batch.ShowsColumns ∧ other.ShowsColumns
  /-- They hold the same transactions in the same order. -/
  toList : batch.toList = other.toList
  /-- They report the same. -/
  summary : batch.summary = other.summary
  /-- They have as many rows, -/
  rows : batch.rows.length = other.rows.length
  /-- and in the same place they show the same amount. -/
  shownAmount? : ∀ i, batch.shownAmount? i = other.shownAmount? i

theorem agrees_of_toList {batch other : Batch} (h : batch.toList = other.toList) :
    batch.Agrees other := by
  have hsize : batch.size = other.size := by rw [← length_toList, h, length_toList]
  refine ⟨⟨batch.showsColumns, other.showsColumns⟩, h, ?_, ?_, fun i => ?_⟩
  · rw [summary, summary, hsize, h]
  · rw [rows, rows, List.length_mapIdx, List.length_mapIdx, h]
  · rw [shownAmount?_eq, shownAmount?_eq, h]

end Batch

namespace Opening

variable (opening : Opening) (heading : Heading)

theorem extend_ofDestination (destination : Destination) (format : DisplayFormat)
    {ts : List Transaction} (hcount : (exportable ts).length ≤ maxSequencedRows) :
    let extended := ((ofDestination destination format).batch heading).extend ts
    extended.2 = none ∧ extended.1.toList = exportable ts := by
  intro extended
  have hfits : upTo (ofDestination destination format).cap? (exportable ts) = exportable ts := by
    cases destination with
    | generalLedger => rfl
    | sequencedLedger => exact List.take_of_length_le hcount
    | policyholderStatement => rfl
  constructor
  · rw [Option.eq_none_iff_forall_ne_some]
    intro error hrefused
    obtain ⟨cap, hcap, hlt, -⟩ := (Batch.refusal_extend _ ts error).mp hrefused
    have hopen : (ofDestination destination format).cap? = some cap := by
      rw [← cap?_layout]
      exact hcap
    have hempty : ((ofDestination destination format).batch heading).size = 0 := rfl
    rw [hopen] at hfits
    have hlength := congrArg List.length hfits
    rw [length_upTo_some] at hlength
    omega
  · rw [Batch.toList_extend, room?_batch, hfits]
    rfl

theorem agrees_extend {ts : List Transaction}
    (hcount : (exportable ts).length ≤ maxSequencedRows)
    (destination other : Destination) (format format' : DisplayFormat) (heading' : Heading) :
    (((ofDestination destination format).batch heading).extend ts).1.Agrees
      (((ofDestination other format').batch heading').extend ts).1 := by
  obtain ⟨-, hheld⟩ := extend_ofDestination heading destination format hcount
  obtain ⟨-, hheld'⟩ := extend_ofDestination heading' other format' hcount
  exact Batch.agrees_of_toList (hheld.trans hheld'.symm)

end Opening

/-- **The layouts agree on what they share.**

Batches for any two destinations that are extended by transactions of which no more have an amount
than can be numbered refuse none, and hold the same, report the same and show the same amounts.  A
numbered row without its number is the plain row, if the account and the reference are the
transaction's own.  All layouts show a reference of its own as it is, in the same words between the
same cells whatever it is.  Without one, a statement shows the ledger's reference with the entity
before it, or with the household between its `MC` and the rest. -/
theorem layouts_agree :
    (∀ (ts : List Transaction), (exportable ts).length ≤ maxSequencedRows →
      ∀ (destination other : Destination) (format format' : DisplayFormat)
        (heading heading' : Heading),
        let extended := ((Opening.ofDestination destination format).batch heading).extend ts
        let extended' := ((Opening.ofDestination other format').batch heading').extend ts
        (extended.2 = none ∧ extended'.2 = none) ∧ extended.1.Agrees extended'.1) ∧
      (∀ (t : Transaction) (account reference : String), t.account = some account →
        t.reference = some reference →
          ∀ place, Row.withoutCell 3 (Row.sequenced place t) = Row.ledger t) ∧
      (∀ (layout : Layout) (place : Nat) (t : Transaction),
        ∃ front back : List String, front.length = layout.referenceColumn ∧
          layout.row place t = Row.line (front ++ Row.cell (layout.reference t) :: back) ∧
          ∀ reference : String, layout.row place { t with reference := some reference } =
            Row.line (front ++ Row.cell reference :: back)) ∧
      ∀ (t : Transaction), t.reference = none →
        (t.isHousehold = false →
          t.statementReference = t.entityCode ++ " " ++ t.ledgerReference) ∧
        (t.isHousehold = true → ∃ rest, t.ledgerReference = "MC" ++ rest ∧
          t.statementReference = "MC " ++ t.householdId ++ rest) := by
  refine ⟨?_, ?_, ?_, ?_⟩
  · intro ts hcount destination other format format' heading heading'
    have hextended := Opening.extend_ofDestination heading destination format hcount
    have hextended' := Opening.extend_ofDestination heading' other format' hcount
    exact ⟨⟨hextended.1, hextended'.1⟩,
      Opening.agrees_extend heading hcount destination other format format' heading'⟩
  · intro t account reference haccount hreference place
    exact Row.withoutCell_sequenced haccount hreference place
  · intro layout place t
    exact layout.row_of_reference place t
  · intro t hreference
    exact ⟨Transaction.statementReference_of_entity hreference,
      Transaction.statementReference_of_household hreference⟩

/-- The sample transactions in a numbered journal and in a statement, and one of them with an account
and a reference of its own, of which the account holds a comma and the reference is empty. -/
theorem layouts_agree_mixedSet :
    let journal := (Opening.ofDestination .sequencedLedger default).batch ⟨9, 2020, ""⟩
    let statement := (Opening.ofDestination .policyholderStatement default).batch ⟨10, 2020, ""⟩
    let t := { Sample.commercialClaim with account := some "4000,10", reference := some "" }
    (exportable Sample.mixedSet).length ≤ maxSequencedRows ∧
      (journal.extend Sample.mixedSet).1.Agrees (statement.extend Sample.mixedSet).1 ∧
      Row.withoutCell 3 (Row.sequenced 1 t) = Row.ledger t ∧
      (Sample.commercialClaim.reference = none ∧ Sample.commercialClaim.isHousehold = false ∧
        Sample.commercialClaim.statementReference =
          "jkl4" ++ " " ++ Sample.commercialClaim.ledgerReference) ∧
      (Sample.householdPremium.reference = none ∧ Sample.householdPremium.isHousehold = true ∧
        ∃ rest, Sample.householdPremium.ledgerReference = "MC" ++ rest ∧
          Sample.householdPremium.statementReference = "MC " ++ "mno5" ++ rest) := by
  intro journal statement t
  have hcount : (exportable Sample.mixedSet).length ≤ maxSequencedRows := by decide
  obtain ⟨hbatches, hnumbered, -, hreferences⟩ := layouts_agree
  obtain ⟨-, hagrees⟩ := hbatches Sample.mixedSet hcount .sequencedLedger .policyholderStatement
    default default ⟨9, 2020, ""⟩ ⟨10, 2020, ""⟩
  refine ⟨hcount, hagrees, hnumbered t "4000,10" "" rfl rfl 1, ⟨rfl, rfl, ?_⟩, rfl, rfl, ?_⟩
  · exact (hreferences Sample.commercialClaim rfl).1 rfl
  · exact (hreferences Sample.householdPremium rfl).2 rfl

end Posting
