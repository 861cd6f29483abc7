import Posting.Batch

/-! # Histories of a batch

A batch is opened once (`Opening`) and then changes only by operations (`Operation`), each of which
hands it transactions; `Batch.run` applies a list of them and goes on after those that fail.

* `Batch.toList_extend` says what an extension keeps: of the transactions with an amount as many as
  there is room for, in their order.
* `Batch.refusal_extend` says when an extension is refused, and why; `Batch.size_extend` says that
  it leaves a full batch then.
* Appending is extending by one transaction (`Operation.apply_eq_extend`), so that all operations
  have the same account.
* `Batch.toList_run` is the account of a whole history: of everything handed over it keeps what one
  extension by all of it would keep.

`Opening.retention` puts these together for a batch that starts without transactions. -/

namespace Posting

/-! ### The first elements of a list -/

/-- The first elements of a list, as many as a bound allows; all of them without a bound. -/
def upTo {α : Type} : Option Nat → List α → List α
  | none, list => list
  | some most, list => list.take most

section upTo

variable {α : Type}

theorem upTo_append (bound : Option Nat) (front back : List α) :
    upTo bound (front ++ back) =
      upTo bound front ++ upTo (bound.map (· - (upTo bound front).length)) back := by
  cases bound with
  | none => rfl
  | some most =>
      simp only [upTo, Option.map_some, List.take_append, List.length_take]
      congr 2
      omega

theorem length_upTo_some (most : Nat) (list : List α) :
    (upTo (some most) list).length = min most list.length :=
  List.length_take

theorem mem_of_mem_upTo {bound : Option Nat} {list : List α} {a : α} (h : a ∈ upTo bound list) :
    a ∈ list := by
  cases bound with
  | none => exact h
  | some most => exact List.mem_of_mem_take h

end upTo

/-- The transactions that have an amount. -/
def exportable (transactions : List Transaction) : List Transaction :=
  transactions.filter Transaction.isExportable

theorem exportable_append (front back : List Transaction) :
    exportable (front ++ back) = exportable front ++ exportable back :=
  List.filter_append ..

theorem exportable_cons (t : Transaction) (rest : List Transaction) :
    exportable (t :: rest) = exportable [t] ++ exportable rest :=
  exportable_append [t] rest

/-! ### Openings -/

/-- The most rows of a batch with this layout, if there is a bound. -/
def Layout.cap? : Layout → Option Nat
  | .sequencedLedger capacity => some capacity.rows
  | _ => none

theorem Layout.exhausted?_eq_some (layout : Layout) (held cap : Nat) :
    layout.exhausted? held = some cap ↔ layout.cap? = some cap ∧ cap ≤ held := by
  cases layout with
  | sequencedLedger capacity =>
      simp only [exhausted?, cap?, Option.ite_none_right_eq_some, Option.some.injEq]
      constructor
      · rintro ⟨hle, rfl⟩
        exact ⟨rfl, hle⟩
      · rintro ⟨rfl, hle⟩
        exact ⟨hle, rfl⟩
  | generalLedger => simp [exhausted?, cap?]
  | policyholderStatement format => simp [exhausted?, cap?]

/-- How a batch is opened: for a destination, or with numbered rows, of which so many are asked
for. -/
inductive Opening
  | ofDestination (destination : Destination) (format : Calendar.DisplayFormat)
  | ofRows (rows : Nat)

namespace Opening

/-- The layout of the batch. -/
def layout : Opening → Layout
  | .ofDestination destination format => .of destination format
  | .ofRows rows => .sequencedLedger (.atMost rows)

/-- The most rows of the batch, if there is a bound. -/
def cap? : Opening → Option Nat
  | .ofDestination .sequencedLedger _ => some maxSequencedRows
  | .ofDestination _ _ => none
  | .ofRows rows => some (min rows maxSequencedRows)

theorem cap?_layout (opening : Opening) : opening.layout.cap? = opening.cap? := by
  rcases opening with ⟨destination, format⟩ | rows
  · cases destination <;> rfl
  · rfl

/-- The batch as it is opened, without transactions. -/
def batch (opening : Opening) (heading : Heading) : Batch :=
  .new opening.layout heading

end Opening

namespace Batch

/-! ### One transaction -/

/-- How many more rows there is room for, if there is a bound. -/
def room? (batch : Batch) : Option Nat :=
  batch.layout.cap?.map (· - batch.size)

@[simp] theorem length_toList (batch : Batch) : batch.toList.length = batch.size :=
  Array.length_toList

@[simp] theorem layout_push (batch : Batch) (t : Transaction) :
    (batch.push t).layout = batch.layout := by
  unfold push
  split <;> rfl

@[simp] theorem heading_push (batch : Batch) (t : Transaction) :
    (batch.push t).heading = batch.heading := by
  unfold push
  split <;> rfl

theorem toList_push (batch : Batch) (t : Transaction) :
    (batch.push t).toList = batch.toList ++ exportable [t] := by
  unfold push exportable
  by_cases h : t.isExportable <;> simp [toList, h]

theorem size_push (batch : Batch) (t : Transaction) :
    (batch.push t).size = batch.size + (exportable [t]).length := by
  rw [← length_toList, toList_push, List.length_append, length_toList]

theorem room?_push (batch : Batch) (t : Transaction) :
    (batch.push t).room? = batch.room?.map (· - (exportable [t]).length) := by
  unfold room?
  rw [layout_push, size_push, Option.map_map]
  congr 1
  funext cap
  simp only [Function.comp_apply]
  omega

theorem refusal?_eq_some (batch : Batch) (t : Transaction) (error : ExportError) :
    batch.refusal? t = some error ↔ t.isExportable = true ∧
      ∃ cap, batch.layout.cap? = some cap ∧ cap ≤ batch.size ∧ error = .sequenceExhausted cap := by
  unfold refusal?
  by_cases h : t.isExportable
  · simp only [h, if_true, true_and, Option.map_eq_some_iff, Layout.exhausted?_eq_some, and_assoc]
    exact exists_congr fun cap => and_congr_right fun _ => and_congr_right fun _ => eq_comm
  · simp [h]

theorem upTo_room?_of_refused {batch : Batch} {t : Transaction} {error : ExportError}
    (h : batch.refusal? t = some error) (ts : List Transaction) : upTo batch.room? ts = [] := by
  obtain ⟨_, cap, hcap, hle, _⟩ := (refusal?_eq_some batch t error).mp h
  have hzero : cap - batch.size = 0 := by omega
  rw [room?, hcap, Option.map_some, hzero, upTo, List.take_zero]

theorem upTo_room?_of_accepted {batch : Batch} {t : Transaction} (h : batch.refusal? t = none) :
    upTo batch.room? (exportable [t]) = exportable [t] := by
  by_cases ht : t.isExportable
  · cases hcap : batch.layout.cap? with
    | none => simp [room?, hcap, upTo]
    | some cap =>
        have hlt : batch.size < cap := by
          refine Nat.lt_of_not_le fun hle => ?_
          have := (refusal?_eq_some batch t _).mpr ⟨ht, cap, hcap, hle, rfl⟩
          rw [h] at this
          cases this
        simp only [room?, hcap, Option.map_some, upTo]
        refine List.take_of_length_le ?_
        have := List.length_filter_le Transaction.isExportable [t]
        simp only [exportable, List.length_singleton] at this ⊢
        omega
  · have hnil : exportable [t] = [] := by simp [exportable, ht]
    rw [hnil]
    cases batch.room? <;> simp [upTo]

/-! ### Extending -/

@[simp] theorem layout_extend (batch : Batch) (ts : List Transaction) :
    (batch.extend ts).1.layout = batch.layout := by
  induction ts generalizing batch with
  | nil => rfl
  | cons t rest ih =>
      unfold extend
      split
      · rfl
      · rw [ih, layout_push]

@[simp] theorem heading_extend (batch : Batch) (ts : List Transaction) :
    (batch.extend ts).1.heading = batch.heading := by
  induction ts generalizing batch with
  | nil => rfl
  | cons t rest ih =>
      unfold extend
      split
      · rfl
      · rw [ih, heading_push]

/-- **What an extension keeps**: of the transactions with an amount as many as there is room for. -/
theorem toList_extend (batch : Batch) (ts : List Transaction) :
    (batch.extend ts).1.toList = batch.toList ++ upTo batch.room? (exportable ts) := by
  induction ts generalizing batch with
  | nil => cases h : batch.room? <;> simp [extend, exportable, upTo]
  | cons t rest ih =>
      unfold extend
      cases hr : batch.refusal? t with
      | some error => simp only [upTo_room?_of_refused hr, List.append_nil]
      | none =>
          have hroom := upTo_room?_of_accepted hr
          simp only
          rw [ih, toList_push, room?_push, exportable_cons t rest, upTo_append, hroom,
            List.append_assoc]

/-- **When an extension is refused**: more transactions have an amount than there is room for. -/
theorem refusal_extend (batch : Batch) (ts : List Transaction) (error : ExportError) :
    (batch.extend ts).2 = some error ↔ ∃ cap, batch.layout.cap? = some cap ∧
      cap - batch.size < (exportable ts).length ∧ error = .sequenceExhausted cap := by
  induction ts generalizing batch with
  | nil => simp [extend, exportable]
  | cons t rest ih =>
      unfold extend
      cases hr : batch.refusal? t with
      | some refusal =>
          obtain ⟨ht, cap, hcap, hle, rfl⟩ := (refusal?_eq_some batch t refusal).mp hr
          have hlt : cap - batch.size < (exportable (t :: rest)).length := by
            simp only [exportable, List.filter_cons_of_pos ht, List.length_cons]
            omega
          simp only [hcap, Option.some.injEq]
          constructor
          · rintro rfl
            exact ⟨cap, rfl, hlt, rfl⟩
          · rintro ⟨_, rfl, _, rfl⟩
            rfl
      | none =>
          have hroom := upTo_room?_of_accepted hr
          simp only
          rw [ih, layout_push, size_push, exportable_cons t rest]
          refine exists_congr fun cap => and_congr_right fun hcap => and_congr_left fun _ => ?_
          rw [room?, hcap, Option.map_some] at hroom
          have := congrArg List.length hroom
          rw [length_upTo_some] at this
          rw [List.length_append]
          omega

theorem size_extend {batch : Batch} {ts : List Transaction} {error : ExportError} {cap : Nat}
    (h : (batch.extend ts).2 = some error) (hcap : batch.layout.cap? = some cap)
    (hle : batch.size ≤ cap) : (batch.extend ts).1.size = cap := by
  obtain ⟨cap', hcap', hlt, _⟩ := (refusal_extend batch ts error).mp h
  rw [hcap, Option.some.injEq] at hcap'
  subst hcap'
  rw [← length_toList, toList_extend, List.length_append, length_toList, room?, hcap,
    Option.map_some, length_upTo_some]
  omega

end Batch

/-! ### Operations -/

/-- An operation that hands transactions to a batch. -/
inductive Operation
  | append (t : Transaction)
  | extend (ts : List Transaction)

namespace Operation

/-- What the operation hands over. -/
def handed : Operation → List Transaction
  | .append t => [t]
  | .extend ts => ts

/-- The batch after the operation, and why it was refused if it was.  A batch that refuses to append
stays as it is. -/
def apply (batch : Batch) : Operation → Batch × Option ExportError
  | .append t =>
    match batch.append t with
    | .ok next => (next, none)
    | .error error => (batch, some error)
  | .extend ts => batch.extend ts

theorem apply_eq_extend (batch : Batch) (operation : Operation) :
    operation.apply batch = batch.extend operation.handed := by
  cases operation with
  | extend ts => rfl
  | append t =>
      cases h : batch.append t with
      | ok next =>
          simp only [apply, handed, h]
          rw [Batch.extend_cons_of_append_ok h, Batch.extend]
      | error error =>
          simp only [apply, handed, h]
          rw [Batch.extend_cons_of_append_error h]

theorem apply_append_of_refused {batch : Batch} {t : Transaction}
    (h : ((append t).apply batch).2.isSome) : ((append t).apply batch).1 = batch := by
  cases ht : batch.append t with
  | ok next => simp [apply, ht] at h
  | error error => simp only [apply, ht]

end Operation

/-- Everything that the operations hand over, in order. -/
def handed (operations : List Operation) : List Transaction :=
  operations.flatMap Operation.handed

namespace Batch

/-- The batch after operations, of which some may fail. -/
def run (batch : Batch) (operations : List Operation) : Batch :=
  operations.foldl (fun batch operation => (operation.apply batch).1) batch

@[simp] theorem run_cons (batch : Batch) (operation : Operation) (rest : List Operation) :
    batch.run (operation :: rest) = (operation.apply batch).1.run rest :=
  rfl

@[simp] theorem layout_run (batch : Batch) (operations : List Operation) :
    (batch.run operations).layout = batch.layout := by
  induction operations generalizing batch with
  | nil => rfl
  | cons operation rest ih => rw [run_cons, ih, Operation.apply_eq_extend, layout_extend]

@[simp] theorem heading_run (batch : Batch) (operations : List Operation) :
    (batch.run operations).heading = batch.heading := by
  induction operations generalizing batch with
  | nil => rfl
  | cons operation rest ih => rw [run_cons, ih, Operation.apply_eq_extend, heading_extend]

theorem room?_extend (batch : Batch) (ts : List Transaction) :
    (batch.extend ts).1.room? =
      batch.room?.map (· - (upTo batch.room? (exportable ts)).length) := by
  have hsize : (batch.extend ts).1.size =
      batch.size + (upTo batch.room? (exportable ts)).length := by
    rw [← length_toList, toList_extend, List.length_append, length_toList]
  rw [room?, layout_extend, hsize]
  cases hcap : batch.layout.cap? with
  | none => simp [room?, hcap]
  | some cap =>
      simp only [room?, hcap, Option.map_some, Option.some.injEq]
      omega

/-- **What a history keeps**: what one extension by everything that is handed over would keep. -/
theorem toList_run (batch : Batch) (operations : List Operation) :
    (batch.run operations).toList =
      batch.toList ++ upTo batch.room? (exportable (handed operations)) := by
  induction operations generalizing batch with
  | nil => cases batch.room? <;> simp [run, handed, exportable, upTo]
  | cons operation rest ih =>
      have hhanded : handed (operation :: rest) = operation.handed ++ handed rest := rfl
      rw [run_cons, ih, Operation.apply_eq_extend, toList_extend, room?_extend, hhanded,
        exportable_append, upTo_append, List.append_assoc]

end Batch

theorem Opening.room?_batch (opening : Opening) (heading : Heading) :
    (opening.batch heading).room? = opening.cap? := by
  rw [← cap?_layout]
  show opening.layout.cap?.map (· - 0) = _
  cases opening.layout.cap? <;> rfl

/-- What a batch keeps of everything that was handed to it since it was opened. -/
theorem Opening.toList_run (opening : Opening) (heading : Heading) (operations : List Operation) :
    ((opening.batch heading).run operations).toList =
      upTo opening.cap? (exportable (handed operations)) := by
  rw [Batch.toList_run, room?_batch]
  rfl

theorem Opening.size_run_le (opening : Opening) (heading : Heading) (operations : List Operation)
    {cap : Nat} (hcap : opening.cap? = some cap) :
    ((opening.batch heading).run operations).size ≤ cap := by
  rw [← Batch.length_toList, toList_run, hcap, length_upTo_some]
  omega

/-- **What a batch holds, and what the next operation does.**  After any history the batch holds the
first transactions with an amount of all that was handed over, as many as its bound allows, under
the layout and the heading that it was opened with.  The next operation is refused if and only if
there is a bound and the operation holds more of them than the bound leaves room for; the batch then
stays as it is if it was to append, and is filled up if it was to extend. -/
theorem Opening.retention (opening : Opening) (heading : Heading) (done : List Operation)
    (next : Operation) :
    let batch := (opening.batch heading).run done
    let outcome := next.apply batch
    (batch.layout = opening.layout ∧ batch.heading = heading) ∧
      batch.toList = upTo opening.cap? (exportable (handed done)) ∧
      (∀ cap, opening.cap? = some cap → batch.size ≤ cap) ∧
      (∀ error, outcome.2 = some error ↔ ∃ cap, opening.cap? = some cap ∧
        cap - batch.size < (exportable next.handed).length ∧ error = .sequenceExhausted cap) ∧
      (outcome.2.isSome → match next with
        | .append _ => outcome.1 = batch
        | .extend _ => opening.cap? = some outcome.1.size) := by
  intro batch outcome
  have hlayout : batch.layout = opening.layout := Batch.layout_run ..
  have hcap : batch.layout.cap? = opening.cap? := by rw [hlayout, opening.cap?_layout]
  have hsize : ∀ cap, opening.cap? = some cap → batch.size ≤ cap := fun cap h =>
    opening.size_run_le heading done h
  have hextend : outcome = batch.extend next.handed := next.apply_eq_extend batch
  have hrefusal : ∀ error, outcome.2 = some error ↔ ∃ cap, opening.cap? = some cap ∧
      cap - batch.size < (exportable next.handed).length ∧ error = .sequenceExhausted cap := by
    intro error
    rw [hextend, batch.refusal_extend, hcap]
  refine ⟨⟨hlayout, Batch.heading_run ..⟩, opening.toList_run heading done, hsize, hrefusal, ?_⟩
  intro hsome
  cases next with
  | append t => exact Operation.apply_append_of_refused hsome
  | extend ts =>
      obtain ⟨error, herror⟩ := Option.isSome_iff_exists.mp hsome
      obtain ⟨cap, hopen, _⟩ := (hrefusal error).mp herror
      have hfull : outcome.1.size = cap :=
        Batch.size_extend herror (hcap.trans hopen) (hsize cap hopen)
      show opening.cap? = some outcome.1.size
      rw [hopen, hfull]

/-- Two rows are asked for, and the second operation is cut short behind the second of them. -/
theorem Opening.retention_of_two_rows :
    let t : Transaction := { amount := ⟨150, by decide, by decide⟩ }
    let done : List Operation := [.append t, .extend [Transaction.blank, t, t, t]]
    let batch := ((Opening.ofRows 2).batch ⟨9, 2020, ""⟩).run done
    batch.toList = [t, t] ∧
      ((Operation.extend [t]).apply batch).2 = some (.sequenceExhausted 2) ∧
      (Opening.ofRows 2).cap? = some ((Operation.extend [t]).apply batch).1.size := by
  intro t done batch
  obtain ⟨-, hheld, -, hrefusal, hfull⟩ :=
    Opening.retention (.ofRows 2) ⟨9, 2020, ""⟩ done (.extend [t])
  have hsecond : ((Operation.extend [t]).apply batch).2 = some (.sequenceExhausted 2) :=
    (hrefusal _).mpr ⟨2, rfl, by decide, rfl⟩
  exact ⟨hheld.trans (by decide), hsecond, hfull (by rw [hsecond]; rfl)⟩

end Posting
