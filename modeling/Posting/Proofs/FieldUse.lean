import Mathlib.Data.List.Forall2
import Posting.Proofs.GrowingFiles

/-! # Which fields a file depends on

Two batches for one destination are handed transactions that agree on the fields that the layout
uses, operation by operation.  Their files are the same, whatever the other fields are.

* `Destination.Agree` says on what transactions have to agree: the fields that every row shows, and
  where a row makes up an account or a reference, those that it is made of.
* `Layout.row_eq`: the rows of such transactions are the same.
* `Batch.Alike` is what two batches have in common all the time: `Batch.Alike.extend` says that an
  extension keeps it, and `Batch.Alike.run` that a history does.
* `Opening.Alike` says how the two batches may be opened: for a journal the display pattern is free,
  for a statement the heading.

`Opening.bytes_of_used_fields` puts these together. -/

namespace Posting

open Calendar

/-! ### Fields in use -/

namespace Transaction

/-- Transactions of one kind of policy that agree on the texts which identify it: those of the
household, or those of the entity. -/
structure SamePolicy (t u : Transaction) : Prop where
  policyType : t.policyType = u.policyType
  household : t.policyType = .household → t.householdId = u.householdId ∧ t.name = u.name
  other : t.policyType = .other → t.entityCode = u.entityCode ∧
    t.accountNumber = u.accountNumber ∧ t.costCenter = u.costCenter ∧ t.policyName = u.policyName

/-- Agreement on what the journal with numbered rows uses. -/
structure SameNumbered (t u : Transaction) : Prop where
  amount : t.amount = u.amount
  date : t.date = u.date
  account : t.account = u.account
  reference : t.reference = u.reference
  description : t.description.toList.take 60 = u.description.toList.take 60

/-- Agreement on what the general ledger's journal uses. -/
structure SameJournal (t u : Transaction) : Prop extends SameNumbered t u where
  policyType : t.policyType = u.policyType
  policy : t.account = none ∨ t.reference = none → SamePolicy t u

/-- Agreement on what a statement uses. -/
structure SameStatement (t u : Transaction) : Prop where
  amount : t.amount = u.amount
  date : t.date = u.date
  description : t.description = u.description
  reference : t.reference = u.reference
  policy : t.reference = none → SamePolicy t u

end Transaction

/-- Agreement on the fields that the file of a destination uses. -/
def Destination.Agree : Destination → Transaction → Transaction → Prop
  | .generalLedger => Transaction.SameJournal
  | .sequencedLedger => Transaction.SameNumbered
  | .policyholderStatement => Transaction.SameStatement

theorem Destination.Agree.amount {destination : Destination} {t u : Transaction}
    (h : destination.Agree t u) : t.amount = u.amount := by
  cases destination with
  | generalLedger => exact h.toSameNumbered.amount
  | sequencedLedger => exact Transaction.SameNumbered.amount h
  | policyholderStatement => exact Transaction.SameStatement.amount h

/-! ### Rows -/

namespace Transaction

variable {t u : Transaction}

theorem getD_eq_getD {given given' : Option String} {made made' : String} (h : given = given')
    (hmade : given = none → made = made') : given.getD made = given'.getD made' := by
  subst h
  cases given with
  | none => exact hmade rfl
  | some s => rfl

theorem SamePolicy.ite_eq_ite (h : SamePolicy t u) {ofHousehold ofHousehold' ofOther ofOther' : String}
    (hhousehold : t.policyType = .household → ofHousehold = ofHousehold')
    (hother : t.policyType = .other → ofOther = ofOther') :
    (if t.isHousehold then ofHousehold else ofOther) =
      if u.isHousehold then ofHousehold' else ofOther' := by
  unfold isHousehold
  rw [← h.policyType]
  cases hkind : t.policyType with
  | household => exact hhousehold hkind
  | other => exact hother hkind

theorem SameJournal.ledgerAccount (h : SameJournal t u) : t.ledgerAccount = u.ledgerAccount := by
  refine getD_eq_getD h.account fun hnone => ?_
  have hpolicy := h.policy (Or.inl hnone)
  exact hpolicy.ite_eq_ite (fun hkind => (hpolicy.household hkind).1)
    fun hkind => (hpolicy.other hkind).1

theorem SameJournal.ledgerReference (h : SameJournal t u) :
    t.ledgerReference = u.ledgerReference := by
  refine getD_eq_getD h.reference fun hnone => ?_
  have hpolicy := h.policy (Or.inr hnone)
  refine hpolicy.ite_eq_ite (fun hkind => ?_) fun hkind => ?_
  · rw [(hpolicy.household hkind).2]
  · obtain ⟨-, hnumber, hcenter, hname⟩ := hpolicy.other hkind
    rw [accountKey, hnumber, hcenter, hname, accountKey]

theorem SameStatement.statementReference (h : SameStatement t u) :
    t.statementReference = u.statementReference := by
  refine getD_eq_getD h.reference fun hnone => ?_
  have hpolicy := h.policy hnone
  refine hpolicy.ite_eq_ite (fun hkind => ?_) fun hkind => ?_
  · rw [(hpolicy.household hkind).1, (hpolicy.household hkind).2]
  · obtain ⟨hentity, hnumber, hcenter, hname⟩ := hpolicy.other hkind
    rw [accountKey, hentity, hnumber, hcenter, hname, accountKey]

theorem SameNumbered.truncate (h : SameNumbered t u) :
    Text.truncate descriptionWidth t.description =
      Text.truncate descriptionWidth u.description := by
  rw [Text.truncate_eq, Text.truncate_eq]
  exact congrArg String.ofList h.description

end Transaction

theorem Layout.row_eq (layout : Layout) {t u : Transaction} (h : layout.destination.Agree t u)
    (place : ℕ) : layout.row place t = layout.row place u := by
  cases layout with
  | generalLedger =>
      have hjournal : t.SameJournal u := h
      show Row.ledger t = Row.ledger u
      rw [Row.ledger, hjournal.ledgerAccount, hjournal.amount, hjournal.truncate,
        hjournal.ledgerReference, hjournal.date, Row.ledger]
  | sequencedLedger capacity =>
      have hnumbered : t.SameNumbered u := h
      show Row.sequenced place t = Row.sequenced place u
      rw [Row.sequenced, hnumbered.account, hnumbered.amount, hnumbered.truncate,
        hnumbered.reference, hnumbered.date, Row.sequenced]
  | policyholderStatement format =>
      have hstatement : t.SameStatement u := h
      show Row.statement format t = Row.statement format u
      rw [Row.statement, hstatement.amount, hstatement.description, hstatement.statementReference,
        hstatement.date, Row.statement]

/-! ### Two batches side by side -/

/-- Operations of one kind that hand over transactions which are alike one by one. -/
inductive Operation.Alike (alike : Transaction → Transaction → Prop) : Operation → Operation → Prop
  | append {t u : Transaction} (h : alike t u) : Alike alike (.append t) (.append u)
  | extend {ts us : List Transaction} (h : List.Forall₂ alike ts us) :
      Alike alike (.extend ts) (.extend us)

theorem Operation.Alike.handed {alike : Transaction → Transaction → Prop}
    {operation operation' : Operation} (h : operation.Alike alike operation') :
    List.Forall₂ alike operation.handed operation'.handed := by
  cases h with
  | append h => exact .cons h .nil
  | extend h => exact h

section

variable {alike : Transaction → Transaction → Prop} {ts us : List Transaction}

theorem forall₂_exportable (hamount : ∀ t u, alike t u → t.amount = u.amount)
    (h : List.Forall₂ alike ts us) : List.Forall₂ alike (exportable ts) (exportable us) := by
  refine List.rel_filter (fun t u htu => ?_) h
  show (!t.amount.isZero) = true ↔ (!u.amount.isZero) = true
  rw [hamount t u htu]

theorem forall₂_upTo (bound : Option ℕ) (h : List.Forall₂ alike ts us) :
    List.Forall₂ alike (upTo bound ts) (upTo bound us) := by
  cases bound with
  | none => exact h
  | some most => exact List.forall₂_take most h

/-- What two batches of one layout have in common when they hold transactions that are alike one by
one. -/
structure Batch.Alike (alike : Transaction → Transaction → Prop) (batch other : Batch) : Prop where
  layout : batch.layout = other.layout
  held : List.Forall₂ alike batch.toList other.toList

namespace Batch.Alike

variable {batch other : Batch}

theorem room? (h : batch.Alike alike other) : batch.room? = other.room? := by
  have hsize : batch.size = other.size := by
    rw [← length_toList, h.held.length_eq, length_toList]
  rw [Batch.room?, h.layout, hsize, Batch.room?]

/-- **An extension by transactions that are alike keeps batches alike.** -/
theorem extend (hamount : ∀ t u, alike t u → t.amount = u.amount) (h : batch.Alike alike other)
    (hts : List.Forall₂ alike ts us) : (batch.extend ts).1.Alike alike (other.extend us).1 where
  layout := by rw [layout_extend, h.layout, layout_extend]
  held := by
    rw [toList_extend, toList_extend, h.room?]
    exact List.rel_append h.held (forall₂_upTo _ (forall₂_exportable hamount hts))

theorem run (hamount : ∀ t u, alike t u → t.amount = u.amount) (h : batch.Alike alike other)
    {operations operations' : List Operation}
    (hoperations : List.Forall₂ (Operation.Alike alike) operations operations') :
    (batch.run operations).Alike alike (other.run operations') := by
  induction hoperations generalizing batch other with
  | nil => exact h
  | cons hoperation hrest ih =>
      rw [run_cons, run_cons, Operation.apply_eq_extend, Operation.apply_eq_extend]
      exact ih (h.extend hamount hoperation.handed)

theorem rows (h : batch.Alike batch.destination.Agree other) : batch.rows = other.rows := by
  unfold Batch.rows
  rw [← h.layout]
  refine List.ext_getElem ?_ fun i hi hi' => ?_
  · rw [List.length_mapIdx, List.length_mapIdx, h.held.length_eq]
  · rw [List.getElem_mapIdx, List.getElem_mapIdx]
    exact batch.layout.row_eq (h.held.get _ _) (i + 1)

end Batch.Alike

end

theorem Batch.render_eq {batch other : Batch}
    (hpreamble : batch.layout.preamble batch.heading = other.layout.preamble other.heading)
    (hrows : batch.rows = other.rows) : batch.render = other.render := by
  rw [Batch.render, hpreamble, hrows, Batch.render]

/-! ### Openings -/

/-- Two batches opened for a destination that its file does not tell apart: for a journal with any
display patterns, for a statement with any headings. -/
inductive Opening.Alike : Destination → Opening × Heading → Opening × Heading → Prop
  | journal {destination : Destination} (hledger : destination.isLedger = true)
      (format format' : DisplayFormat) (heading : Heading) :
      Alike destination (.ofDestination destination format, heading)
        (.ofDestination destination format', heading)
  | numbered (rows : ℕ) (heading : Heading) :
      Alike .sequencedLedger (.ofRows rows, heading) (.ofRows rows, heading)
  | statement (format : DisplayFormat) (heading heading' : Heading) :
      Alike .policyholderStatement (.ofDestination .policyholderStatement format, heading)
        (.ofDestination .policyholderStatement format, heading')

namespace Opening

variable {destination : Destination} {opening opening' : Opening × Heading}

theorem Alike.destination_layout (h : Alike destination opening opening') :
    opening.1.layout.destination = destination := by
  cases h with
  | journal hledger format format' heading => cases destination <;> rfl
  | numbered rows heading => rfl
  | statement format heading heading' => rfl

theorem Alike.layout (h : Alike destination opening opening') :
    opening.1.layout = opening'.1.layout := by
  cases h with
  | journal hledger format format' heading =>
      cases destination with
      | generalLedger => rfl
      | sequencedLedger => rfl
      | policyholderStatement => cases hledger
  | numbered rows heading => rfl
  | statement format heading heading' => rfl

theorem Alike.preamble (h : Alike destination opening opening') :
    opening.1.layout.preamble opening.2 = opening'.1.layout.preamble opening'.2 := by
  rw [← h.layout]
  cases h with
  | journal hledger format format' heading => rfl
  | numbered rows heading => rfl
  | statement format heading heading' => rfl

/-- **A file depends on the fields in use only.**  Two batches for one destination are opened, for a
journal under one heading and for a statement with one display pattern, and go through the same
operations with transactions that agree on the fields which the destination uses.  Then their files
have the same bytes. -/
theorem bytes_of_used_fields (hopened : Alike destination opening opening')
    {operations operations' : List Operation}
    (hoperations : List.Forall₂ (Operation.Alike destination.Agree) operations operations') :
    ((opening.1.batch opening.2).run operations).render.bytes =
      ((opening'.1.batch opening'.2).run operations').render.bytes := by
  have hbatches : (opening.1.batch opening.2).Alike destination.Agree
      (opening'.1.batch opening'.2) := ⟨hopened.layout, .nil⟩
  have hrun := hbatches.run (fun _ _ => Destination.Agree.amount) hoperations
  have hdestination : ((opening.1.batch opening.2).run operations).destination = destination := by
    rw [Batch.destination, Batch.layout_run]
    exact hopened.destination_layout
  have hpreamble : ((opening.1.batch opening.2).run operations).layout.preamble
      ((opening.1.batch opening.2).run operations).heading =
        ((opening'.1.batch opening'.2).run operations').layout.preamble
          ((opening'.1.batch opening'.2).run operations').heading := by
    rw [Batch.layout_run, Batch.heading_run, Batch.layout_run, Batch.heading_run]
    exact hopened.preamble
  exact congrArg Payload.bytes
    (Batch.render_eq hpreamble (Batch.Alike.rows (hdestination.symm ▸ hrun)))

/-- Two journals with different display patterns: of a household's premium the entity, the policy and
the income account differ, and of a claim with an account and a reference of its own all that
identifies the policy, which for a journal is not in use then.  Two statements under different
headings: the accounts of the premium differ. -/
theorem bytes_of_used_fields_samples :
    let premium := Sample.householdPremium
    let premium' := { premium with
      entityCode := "jkl4", policyName := "ghi3", incomeAccount := some "4100" }
    let claim := { Sample.commercialClaim with account := some "4000", reference := some "" }
    let claim' := { claim with entityCode := "", accountNumber := "", policyName := "secret" }
    let iso : DisplayFormat := ⟨"%F", by decide +kernel⟩
    (((ofDestination .generalLedger default).batch ⟨9, 2020, "September"⟩).run
        [.append premium, .extend [claim]]).render.bytes =
      (((ofDestination .generalLedger iso).batch ⟨9, 2020, "September"⟩).run
        [.append premium', .extend [claim']]).render.bytes ∧
    (((ofDestination .policyholderStatement iso).batch ⟨9, 2020, "September"⟩).run
        [.append premium]).render.bytes =
      (((ofDestination .policyholderStatement iso).batch ⟨1, 1999, ""⟩).run
        [.append { premium' with account := some "4000" }]).render.bytes := by
  intro premium premium' claim claim' iso
  have hpolicy : premium.SamePolicy premium' := ⟨rfl, fun _ => ⟨rfl, rfl⟩, nofun⟩
  have hpremium : premium.SameJournal premium' :=
    ⟨⟨rfl, rfl, rfl, rfl, rfl⟩, rfl, fun _ => hpolicy⟩
  have hclaim : claim.SameJournal claim' :=
    ⟨⟨rfl, rfl, rfl, rfl, rfl⟩, rfl, fun hnone => by rcases hnone with hnone | hnone <;> cases hnone⟩
  have hstatement : premium.SameStatement { premium' with account := some "4000" } :=
    ⟨rfl, rfl, rfl, rfl, fun _ => ⟨rfl, fun _ => ⟨rfl, rfl⟩, nofun⟩⟩
  constructor
  · exact bytes_of_used_fields (.journal rfl default iso ⟨9, 2020, "September"⟩)
      (.cons (.append hpremium) (.cons (.extend (.cons hclaim .nil)) .nil))
  · exact bytes_of_used_fields (.statement iso ⟨9, 2020, "September"⟩ ⟨1, 1999, ""⟩)
      (.cons (.append hstatement) .nil)

end Opening

end Posting
