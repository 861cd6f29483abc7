import Posting.Proofs.DateReading
import Posting.Proofs.RecordReading
import Posting.Proofs.RunEndings

/-! # What a file of transactions says

A file that is loaded is one JSON array, and every element of it says what one transaction is.

* `Transaction.IsWritten` says how: each field that an element gives is what its value means, and
  each that it does not give is blank.  No field is given twice, and amounts are integers of 64 bits.
* `says_of_fromJson` says that every text that is accepted is written so.
* `says_of_load` says so of files, and that the text is written for no other array. -/

namespace Posting

open Calendar Files Json

/-- An integer of 64 bits that is an amount. -/
def Json.Tree.IsAmount (tree : Tree) (a : Amount) : Prop :=
  ∃ l, tree = .number l ∧ l.IsInteger ∧ l.value = a.minor ∧
    -(2 ^ 63) ≤ l.value ∧ l.value ≤ 2 ^ 63 - 1

/-- A text that writes a date. -/
def Json.Tree.IsDate (tree : Tree) (d : Date) : Prop :=
  ∃ s, tree.IsText s ∧ d.WrittenIn s

/-- The name of a kind of policy. -/
def Json.Tree.IsPolicyType (tree : Tree) (p : PolicyType) : Prop :=
  tree.IsName p.name

/-! ### Fields -/

theorem Amount.codec_sound : Amount.codec.Sound Tree.IsAmount := by
  refine .ofHead fun head a haccept => ?_
  split at haccept
  · next n =>
      split at haccept
      · next a' hminor =>
          cases haccept
          have hn := Amount.ofMinor?_eq_some_iff.mp hminor
          refine ⟨trivial, fun tree htells => ?_⟩
          cases htells with
          | @integer l _ hinteger hvalue =>
              rw [hn] at hvalue
              refine ⟨l, rfl, hinteger, hvalue, ?_, ?_⟩
              · rw [hvalue]
                have := a.lower
                exact_mod_cast (by omega : -(2 ^ 63) ≤ a.minor)
              · rw [hvalue]
                have := a.upper
                exact_mod_cast (by omega : a.minor ≤ 2 ^ 63 - 1)
      · cases haccept
  · cases haccept

theorem Date.codec_sound : Date.codec.Sound Tree.IsDate := by
  intro cs d rest hscan
  obtain ⟨tree, hbegins, s, htext, haccept⟩ := Codec.Sound.refine (.text _) _ _ cs d rest hscan
  exact ⟨tree, hbegins, s, htext, Date.read_eq_ok_iff.mp (mapError_eq_ok_iff.mp haccept)⟩

theorem PolicyType.codec_sound : PolicyType.codec.Sound Tree.IsPolicyType := by
  intro cs p rest hscan
  obtain ⟨tree, hbegins, s, hname, hlookup⟩ := Codec.Sound.choice _ _ cs p rest hscan
  have hs : s = p.name := by
    simp only [List.lookup_cons, List.lookup_nil] at hlookup
    split at hlookup
    · next h =>
        cases hlookup
        exact beq_iff_eq.mp h
    · split at hlookup
      · next h =>
          cases hlookup
          exact beq_iff_eq.mp h
      · cases hlookup
  rw [hs] at hname
  exact ⟨tree, hbegins, hname⟩

namespace Transaction

/-- The fields of a transaction, with what their values mean. -/
def readings : List (Reading Transaction) :=
  let text := Tree.IsText
  let textOrNull := Tree.OrNull Tree.IsText
  [⟨⟨"account", .nullable .string, account, fun x t => { t with account := x }⟩, textOrNull⟩,
    ⟨⟨"amount", Amount.codec, amount, fun x t => { t with amount := x }⟩, Tree.IsAmount⟩,
    ⟨⟨"description", .string, description, fun x t => { t with description := x }⟩, text⟩,
    ⟨⟨"reference", .nullable .string, reference, fun x t => { t with reference := x }⟩, textOrNull⟩,
    ⟨⟨"date", Date.codec, date, fun x t => { t with date := x }⟩, Tree.IsDate⟩,
    ⟨⟨"policy_type", PolicyType.codec, policyType, fun x t => { t with policyType := x }⟩,
      Tree.IsPolicyType⟩,
    ⟨⟨"household_id", .string, householdId, fun x t => { t with householdId := x }⟩, text⟩,
    ⟨⟨"entity_code", .string, entityCode, fun x t => { t with entityCode := x }⟩, text⟩,
    ⟨⟨"account_number", .string, accountNumber, fun x t => { t with accountNumber := x }⟩, text⟩,
    ⟨⟨"cost_center", .string, costCenter, fun x t => { t with costCenter := x }⟩, text⟩,
    ⟨⟨"policy_name", .string, policyName, fun x t => { t with policyName := x }⟩, text⟩,
    ⟨⟨"name", .string, name, fun x t => { t with name := x }⟩, text⟩,
    ⟨⟨"income_account", .nullable .string, incomeAccount, fun x t => { t with incomeAccount := x }⟩,
      textOrNull⟩]

theorem map_field_readings : readings.map Reading.field = fields :=
  rfl

theorem readable : Readable readings where
  nodup := by decide
  sound := by
    simp only [readings, List.forall_mem_cons]
    exact ⟨Codec.Sound.string.nullable, Amount.codec_sound, .string, Codec.Sound.string.nullable,
      Date.codec_sound, PolicyType.codec_sound, .string, .string, .string, .string, .string,
      .string, Codec.Sound.string.nullable, by rintro _ ⟨⟩⟩
  get_set := by simp [readings]
  get_set_of_ne := by simp [readings, Reading.name]

/-! ### Elements -/

/-- What an element of a file says of a transaction: what it gives for a field is what the field
holds, and a field for which it gives nothing is blank. -/
structure IsWritten (element : Tree) (t : Transaction) : Prop where
  form : (∃ entries, element = .object entries) ∨
    ∃ items, element = .array items ∧ items.length ≤ 13
  account : Given (Tree.OrNull Tree.IsText) none (element.given 0 "account") t.account
  amount : Given Tree.IsAmount .zero (element.given 1 "amount") t.amount
  description : Given Tree.IsText "" (element.given 2 "description") t.description
  reference : Given (Tree.OrNull Tree.IsText) none (element.given 3 "reference") t.reference
  date : Given Tree.IsDate .epoch (element.given 4 "date") t.date
  policyType : Given Tree.IsPolicyType .other (element.given 5 "policy_type") t.policyType
  householdId : Given Tree.IsText "" (element.given 6 "household_id") t.householdId
  entityCode : Given Tree.IsText "" (element.given 7 "entity_code") t.entityCode
  accountNumber : Given Tree.IsText "" (element.given 8 "account_number") t.accountNumber
  costCenter : Given Tree.IsText "" (element.given 9 "cost_center") t.costCenter
  policyName : Given Tree.IsText "" (element.given 10 "policy_name") t.policyName
  name : Given Tree.IsText "" (element.given 11 "name") t.name
  incomeAccount :
    Given (Tree.OrNull Tree.IsText) none (element.given 12 "income_account") t.incomeAccount

theorem isWritten_of_record {element : Tree} {t : Transaction}
    (h : Record.IsWritten readings blank element t) : IsWritten element t where
  form := h.form
  account := h.given 0 _ rfl
  amount := h.given 1 _ rfl
  description := h.given 2 _ rfl
  reference := h.given 3 _ rfl
  date := h.given 4 _ rfl
  policyType := h.given 5 _ rfl
  householdId := h.given 6 _ rfl
  entityCode := h.given 7 _ rfl
  accountNumber := h.given 8 _ rfl
  costCenter := h.given 9 _ rfl
  policyName := h.given 10 _ rfl
  name := h.given 11 _ rfl
  incomeAccount := h.given 12 _ rfl

theorem codec_sound : Transaction.codec.Sound IsWritten := by
  intro cs t rest hscan
  rw [Transaction.codec, ← map_field_readings] at hscan
  obtain ⟨element, hbegins, hwritten⟩ := Codec.Sound.record readable _ _ cs t rest hscan
  exact ⟨element, hbegins, isWritten_of_record hwritten⟩

end Transaction

/-! ### Files -/

/-- A text that is one array, with an element for each transaction of a list, and is no other
value. -/
structure Says (text : String) (elements : List Tree) (transactions : List Transaction) :
    Prop where
  written : Writes text (.array elements)
  only : ∀ tree, Writes text tree → tree = .array elements
  length : elements.length = transactions.length
  elements : List.Forall₂ Transaction.IsWritten elements transactions

/-- **A text that is accepted says what the transactions are.** -/
theorem says_of_fromJson {text : String} {transactions : List Transaction}
    (h : Transaction.fromJson text = .ok transactions) :
    ∃ elements, Says text elements transactions := by
  obtain ⟨rest, hscan, hrest⟩ := readWith_eq_ok_iff.mp h
  obtain ⟨tree, hbegins, elements, rfl, helements⟩ :=
    Codec.Sound.list Transaction.codec_sound _ _ _ hscan
  have hwritten : Writes text (.array elements) := ⟨rest, hbegins, hrest⟩
  exact ⟨elements, hwritten, fun tree htree => htree.unique hwritten, helements.length_eq,
    helements⟩

/-- **A file that is loaded says what the transactions are**, and loading changes nothing. -/
theorem says_of_load {access : Access (StateM FileTree)} (hosted : access.Hosted)
    {tree after : FileTree} {path : String} {transactions : List Transaction}
    (h : (load access path).run.run tree = (.ok transactions, after)) :
    after = tree ∧ ∃ text elements, tree.read path = .ok text.toUTF8 ∧
      Says text elements transactions := by
  obtain ⟨hafter, loaded⟩ := loaded_of_load hosted h
  cases loaded with
  | read hfile htext =>
      obtain ⟨elements, hsays⟩ := says_of_fromJson htext
      exact ⟨hafter, _, elements, hfile, hsays⟩

/-- A file with an escape in a name, values that no field asks for, and an element that is an
array. -/
def oddTree : FileTree :=
  let text := "[\x7b\"\\u0061mount\": 150, \"x\": [1, \x7b\"y\": -2.5e3\x7d], \"account\": null\x7d," ++
    " [\"4000\", -7], \x7b\x7d ]"
  ⟨[(["in.json"], .file text.toUTF8)]⟩

theorem says_of_load_oddTree :
    let transactions : List Transaction :=
      [{ amount := ⟨150, by decide, by decide⟩ },
        { account := some "4000", amount := ⟨-7, by decide, by decide⟩ }, {}]
    let outcome := (load FileTree.access "in.json").run.run oddTree
    outcome.1 = .ok transactions ∧ outcome.2 = oddTree ∧
      ∃ text elements, oddTree.read "in.json" = .ok text.toUTF8 ∧ Says text elements transactions := by
  intro transactions outcome
  have hloaded : outcome.1 = .ok transactions := by decide +kernel
  exact ⟨hloaded, says_of_load FileTree.hosted_access (Prod.ext hloaded rfl)⟩

end Posting
