import Posting.Error
import Posting.Heading
import Posting.Payload

/-!
# Batches

A batch collects transactions for one destination.  It drops those without an amount and keeps all
others in the order in which they come; a batch with numbered rows refuses what it cannot number.

* `Batch.append` adds one transaction, `Batch.extend` a list up to the first refusal.
* `Batch.render` writes the file: columns, heading and rows.
* `Batch.summary` counts the rows and adds up the amounts that they show.
-/

namespace Posting

open Calendar Number

/-- The most rows that a batch with numbered rows holds. -/
structure Capacity where
  rows : Nat
  rows_le : rows ≤ maxSequencedRows
  deriving DecidableEq, Repr

namespace Capacity

/-- As many rows as can be numbered, and no more than asked for. -/
def atMost (rows : Nat) : Capacity :=
  ⟨min rows maxSequencedRows, Nat.min_le_right ..⟩

/-- As many rows as can be numbered. -/
def full : Capacity :=
  ⟨maxSequencedRows, Nat.le_refl _⟩

end Capacity

/-- A destination, with what the rows of its file depend on. -/
inductive Layout
  | generalLedger
  | sequencedLedger (capacity : Capacity)
  | policyholderStatement (format : DisplayFormat)
  deriving DecidableEq

namespace Layout

/-- The layout of a destination. -/
def of (destination : Destination) (format : DisplayFormat) : Layout :=
  match destination with
  | .generalLedger => .generalLedger
  | .sequencedLedger => .sequencedLedger .full
  | .policyholderStatement => .policyholderStatement format

/-- The destination of the layout. -/
def destination : Layout → Destination
  | .generalLedger => .generalLedger
  | .sequencedLedger _ => .sequencedLedger
  | .policyholderStatement _ => .policyholderStatement

/-- The text before the first transaction. -/
def preamble (heading : Heading) : Layout → String
  | .generalLedger => Heading.batchColumns ++ Heading.ledgerColumns ++ heading.summaryRow
  | .sequencedLedger _ => Heading.batchColumns ++ Heading.sequencedColumns ++ heading.summaryRow
  | .policyholderStatement _ => Heading.statementColumns

/-- The row of a transaction at a place counted from 1. -/
def row (place : Nat) (t : Transaction) : Layout → String
  | .generalLedger => Row.ledger t
  | .sequencedLedger _ => Row.sequenced place t
  | .policyholderStatement format => Row.statement format t

/-- The most rows that the layout can number, if the rows held leave no room for another one. -/
def exhausted? (held : Nat) : Layout → Option Nat
  | .sequencedLedger capacity => if capacity.rows ≤ held then some capacity.rows else none
  | _ => none

end Layout

/-- Transactions collected for one destination. -/
structure Batch where
  layout : Layout
  heading : Heading
  entries : Array Transaction
  deriving DecidableEq

/-- The number of rows and the sum of the amounts that they show; the sum is missing where it passes
all bounds. -/
structure Summary where
  rows : Nat
  total : Option Decimal
  deriving DecidableEq, Repr

namespace Batch

/-- The batch of a layout and a heading without transactions. -/
def new (layout : Layout) (heading : Heading) : Batch :=
  ⟨layout, heading, #[]⟩

def destination (batch : Batch) : Destination :=
  batch.layout.destination

def size (batch : Batch) : Nat :=
  batch.entries.size

def isEmpty (batch : Batch) : Bool :=
  batch.entries.isEmpty

/-- The transactions held, in the order in which they came. -/
def toList (batch : Batch) : List Transaction :=
  batch.entries.toList

/-- Why the batch has no room for a transaction, if it has an amount and there is none. -/
def refusal? (batch : Batch) (t : Transaction) : Option ExportError :=
  if t.isExportable then (batch.layout.exhausted? batch.size).map .sequenceExhausted else none

/-- The batch with one more transaction at its end, if it has an amount. -/
def push (batch : Batch) (t : Transaction) : Batch :=
  if t.isExportable then { batch with entries := batch.entries.push t } else batch

/-- The batch with one more transaction, unless it has no room for it. -/
def append (batch : Batch) (t : Transaction) : Except ExportError Batch :=
  match batch.refusal? t with
  | some error => .error error
  | none => .ok (batch.push t)

/-- The batch with more transactions, up to the first one that it refuses, and why it does. -/
def extend (batch : Batch) : List Transaction → Batch × Option ExportError
  | [] => (batch, none)
  | t :: rest =>
    match batch.refusal? t with
    | some error => (batch, some error)
    | none => extend (batch.push t) rest

theorem extend_cons_of_append_ok {batch next : Batch} {t : Transaction}
    (h : batch.append t = .ok next) (rest : List Transaction) :
    batch.extend (t :: rest) = next.extend rest := by
  cases hr : batch.refusal? t <;> simp_all [append, extend]

theorem extend_cons_of_append_error {batch : Batch} {t : Transaction} {error : ExportError}
    (h : batch.append t = .error error) (rest : List Transaction) :
    batch.extend (t :: rest) = (batch, some error) := by
  cases hr : batch.refusal? t <;> simp_all [append, extend]

def rows (batch : Batch) : List String :=
  batch.toList.mapIdx (fun i t => batch.layout.row (i + 1) t)

/-- The batch file. -/
def render (batch : Batch) : Payload :=
  ⟨batch.layout.preamble batch.heading ++ String.join batch.rows⟩

/-- The archive of a statement, which holds nothing; journals have none. -/
def archive (batch : Batch) : Except ExportError Payload :=
  match batch.layout with
  | .policyholderStatement _ => .ok .empty
  | _ => .error (.archiveUnsupported batch.destination)

/-- The number of rows and the sum of the amounts that they show. -/
def summary (batch : Batch) : Summary :=
  ⟨batch.size, Decimal.sum? (batch.toList.map (fun t => t.amount.negated))⟩

def fileName (batch : Batch) : String :=
  batch.destination.fileName batch.heading.year batch.heading.period

end Batch

end Posting
