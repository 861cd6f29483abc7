import Mathlib.Tactic.Linarith
import Posting.Proofs.Digits
import Posting.Proofs.History

/-! # Numbers of rows

A journal with numbered rows writes twenty times the place of a row, in a column of ten digits.

* `Text.lt_of_readDigits_lt`: runs of digits of one length are sorted by their numbers.
* `length_sequenceNumber_iff`: ten digits suffice for as many rows as a batch holds at most, and for
  no more.

`Opening.row_numbers` says what follows for the rows of every batch. -/

namespace Posting

open Text

/-! ### Numbers in their column -/

theorem toList_sequenceNumber (place : Nat) :
    (sequenceNumber place).toList = padded 10 (place * 20) :=
  String.toList_ofList

@[simp] theorem readDigits_sequenceNumber (place : Nat) :
    readDigits (sequenceNumber place).toList = 20 * place := by
  rw [toList_sequenceNumber, readDigits_padded, Nat.mul_comm]

theorem allDigits_sequenceNumber (place : Nat) : AllDigits (sequenceNumber place).toList := by
  rw [toList_sequenceNumber]
  exact allDigits_padded 10 _

/-- **Ten digits suffice for the rows that a batch can hold**, and for no more. -/
theorem length_sequenceNumber_iff (place : Nat) :
    (sequenceNumber place).toList.length = 10 ↔ place ≤ maxSequencedRows := by
  constructor
  · intro hlength
    have hlt := readDigits_lt (allDigits_sequenceNumber place)
    rw [hlength, readDigits_sequenceNumber] at hlt
    show place ≤ 499999999
    omega
  · intro hle
    have hfits : place * 20 < 10 ^ 10 := by
      have : place ≤ 499999999 := hle
      omega
    rw [toList_sequenceNumber]
    exact length_padded (by decide) hfits

theorem sequenceNumber_lt {place next : Nat} (h : place < next) (hnext : next ≤ maxSequencedRows) :
    sequenceNumber place < sequenceNumber next := by
  have hlength := (length_sequenceNumber_iff place).mpr (by omega)
  have hlength' := (length_sequenceNumber_iff next).mpr hnext
  rw [String.lt_iff]
  apply lt_of_readDigits_lt (allDigits_sequenceNumber place) (allDigits_sequenceNumber next)
  · rw [hlength, hlength']
  · rw [readDigits_sequenceNumber, readDigits_sequenceNumber]
    omega

/-- What is asked of the text of a row's number. -/
structure FitsColumn (place : Nat) (number : String) : Prop where
  /-- The product fits a 64-bit word. -/
  product : place * sequenceStep < 2 ^ 64
  digits : AllDigits number.toList
  length : number.toList.length = 10
  value : readDigits number.toList = 20 * place

theorem fitsColumn_sequenceNumber {place : Nat} (h : place ≤ maxSequencedRows) :
    FitsColumn place (sequenceNumber place) := by
  refine ⟨?_, allDigits_sequenceNumber place, (length_sequenceNumber_iff place).mpr h,
    readDigits_sequenceNumber place⟩
  have hle : place ≤ 499999999 := h
  show place * 20 < 2 ^ 64
  omega

/-! ### Rows -/

theorem Row.exists_sequenced_eq (place : Nat) (t : Transaction) :
    ∃ rest, Row.sequenced place t =
      "\"2\",\"000000\",\"00001\",\"" ++ sequenceNumber place ++ "\"," ++ rest := by
  refine ⟨line [cell (t.account.getD ""), t.amount.exportText,
    cell (truncate descriptionWidth t.description), cell (t.reference.getD ""),
    cell t.date.compact], ?_⟩
  rw [← String.toList_inj]
  simp [sequenced, line, leader, cell]

namespace Opening

theorem exists_cap_le {opening : Opening} (h : opening.layout.destination = .sequencedLedger) :
    ∃ cap, opening.cap? = some cap ∧ cap ≤ maxSequencedRows := by
  rcases opening with ⟨destination, format⟩ | rows
  · cases destination with
    | generalLedger => cases h
    | sequencedLedger => exact ⟨_, rfl, le_rfl⟩
    | policyholderStatement => cases h
  · exact ⟨_, rfl, Nat.min_le_right _ _⟩

/-- **The numbers of rows fit their column.**  Whatever history a batch with numbered rows has,
each of its rows shows its number in ten digits, which the product of its place fits as well as a
64-bit word; of two rows the later one has the greater number and the later text.  No more rows can
be numbered like this than a batch holds at most. -/
theorem row_numbers (opening : Opening) (heading : Heading) (operations : List Operation)
    (hnumbered : opening.layout.destination = .sequencedLedger) :
    let batch := (opening.batch heading).run operations
    batch.render.text = opening.layout.preamble heading ++ String.join batch.rows ∧
      (∀ i row, batch.rows[i]? = some row → ∃ rest,
        row = "\"2\",\"000000\",\"00001\",\"" ++ sequenceNumber (i + 1) ++ "\"," ++ rest ∧
          FitsColumn (i + 1) (sequenceNumber (i + 1))) ∧
      (∀ i j, i < j → j < batch.rows.length →
        readDigits (sequenceNumber (i + 1)).toList < readDigits (sequenceNumber (j + 1)).toList ∧
          sequenceNumber (i + 1) < sequenceNumber (j + 1) ∧
          sequenceNumber (i + 1) ≠ sequenceNumber (j + 1)) ∧
      ∀ place, place * sequenceStep < 2 ^ 64 →
        ((sequenceNumber place).toList.length = 10 ↔ place ≤ maxSequencedRows) := by
  intro batch
  have hlayout : batch.layout = opening.layout := Batch.layout_run ..
  have hheading : batch.heading = heading := Batch.heading_run ..
  obtain ⟨cap, hcap, hle⟩ := exists_cap_le hnumbered
  have hsize : batch.size ≤ maxSequencedRows :=
    le_trans (opening.size_run_le heading operations hcap) hle
  have hlength : batch.rows.length = batch.size := by
    rw [Batch.rows, List.length_mapIdx, Batch.length_toList]
  refine ⟨?_, fun i row hrow => ?_, fun i j hij hj => ?_, fun place _ => ?_⟩
  · rw [← hlayout, ← hheading]
    rfl
  · have hi : i < batch.size := by
      rw [← hlength]
      exact (List.getElem?_eq_some_iff.mp hrow).1
    have hsequenced : ∃ t, row = Row.sequenced (i + 1) t := by
      rw [Batch.rows, List.getElem?_mapIdx, Option.map_eq_some_iff] at hrow
      obtain ⟨t, -, rfl⟩ := hrow
      rw [← hlayout] at hnumbered
      cases hkind : batch.layout with
      | generalLedger =>
          rw [hkind] at hnumbered
          cases hnumbered
      | sequencedLedger capacity => exact ⟨t, rfl⟩
      | policyholderStatement format =>
          rw [hkind] at hnumbered
          cases hnumbered
    obtain ⟨t, rfl⟩ := hsequenced
    obtain ⟨rest, hrest⟩ := Row.exists_sequenced_eq (i + 1) t
    exact ⟨rest, hrest, fitsColumn_sequenceNumber (by omega)⟩
  · have hlt : sequenceNumber (i + 1) < sequenceNumber (j + 1) :=
      sequenceNumber_lt (by omega) (by omega)
    refine ⟨?_, hlt, fun heq => ?_⟩
    · rw [readDigits_sequenceNumber, readDigits_sequenceNumber]
      omega
    · rw [heq] at hlt
      exact absurd hlt (String.lt_irrefl _)
  · exact length_sequenceNumber_iff place

/-- More rows are asked for than can be numbered; the two that are held are numbered 20 and 40. -/
theorem row_numbers_of_two :
    let opening := Opening.ofRows 1000000000
    let t : Transaction := { amount := ⟨150, by decide, by decide⟩ }
    let batch := (opening.batch ⟨9, 2020, ""⟩).run [.append t, .extend [Transaction.blank, t]]
    opening.layout.destination = .sequencedLedger ∧ batch.rows.length = 2 ∧
      FitsColumn 2 (sequenceNumber 2) ∧ sequenceNumber 1 < sequenceNumber 2 := by
  intro opening t batch
  have hrows : batch.rows.length = 2 := by decide
  obtain ⟨-, hfits, horder, -⟩ := row_numbers opening ⟨9, 2020, ""⟩
    [.append t, .extend [Transaction.blank, t]] rfl
  have hone : 1 < batch.rows.length := by
    rw [hrows]
    decide
  obtain ⟨-, -, hsecond⟩ := hfits 1 _ (List.getElem?_eq_getElem hone)
  exact ⟨rfl, hrows, hsecond, (horder 0 1 (by decide) hone).2.1⟩

end Opening

end Posting
