import Posting.Proofs.RecordTexts
import Posting.Proofs.TransactionFile
import Posting.Profile.Codec

/-! # Transactions and profiles are read alike from every form

Whether a transaction stands in an array or in an object, in which order its fields stand, which
other names stand beside them, and whether fields are left out that are blank anyway, makes no
difference to what is read.

`forms_read_alike` says so of transactions and of profiles, both of values and of texts. -/

namespace Posting

open Calendar Json

/-! ### Transactions -/

theorem Amount.codec_steady : Amount.codec.Steady := by
  refine .ofInteger fun head a haccept => ?_
  split at haccept
  · next n =>
      split at haccept
      · next a' hminor =>
          obtain rfl := Amount.ofMinor?_eq_some_iff.mp hminor
          exact ⟨a'.minor, rfl, a'.lower, a'.upper⟩
      · cases haccept
  · cases haccept

theorem nullableText_steady : Codec.string.nullable.Steady := by
  refine Codec.Steady.string.nullable fun s htakes => ?_
  have hscan := htakes "null".toList [] (.null rfl) endsNumber_nil
  have hunfit : Codec.string.scan "null".toList = unfit (.wrongKind .null "a string") := rfl
  rw [hunfit] at hscan
  cases hscan

namespace Transaction

theorem fields_lawful : Record.Lawful fields where
  nodup := by decide
  get_set := by simp [fields]
  get_set_of_ne := by simp [fields]
  ext a a' h := by
    cases a
    cases a'
    simp only [fields, List.forall_mem_cons] at h
    simp_all

theorem fields_steady : ∀ field ∈ fields, field.codec.Steady := by
  have htext := Codec.Steady.string
  simp only [fields, List.forall_mem_cons]
  exact ⟨nullableText_steady, Amount.codec_steady, htext, nullableText_steady,
    (Codec.Steady.text _).refine _ _, .choice _ _, htext, htext, htext, htext, htext, htext,
    nullableText_steady, by rintro _ ⟨⟩⟩

end Transaction

/-! ### Profiles -/

namespace Profile

theorem fields_lawful : Record.Lawful fields where
  nodup := by decide
  get_set := by simp [fields]
  get_set_of_ne := by simp [fields]
  ext p p' h := by
    cases p
    cases p'
    simp only [fields, List.forall_mem_cons] at h
    simp_all

theorem fields_steady : ∀ field ∈ fields, field.codec.Steady := by
  simp only [fields, List.forall_mem_cons]
  exact ⟨.string, .natural (by decide), .string, by rintro _ ⟨⟩⟩

end Profile

/-! ### Both -/

/-- **Transactions and profiles are read alike from every form**: from an array of their first so
many fields and from the object with the names of these, in any order, beside any other names, and
with or without fields that are as in the standard.  Arrays of more items are refused. -/
theorem forms_read_alike :
    Transaction.codec.ReadsFormsAlike .blank Transaction.fields ∧
      Record.fieldNames Transaction.fields =
        ["account", "amount", "description", "reference", "date", "policy_type", "household_id",
          "entity_code", "account_number", "cost_center", "policy_name", "name",
          "income_account"] ∧
      Profile.codec.ReadsFormsAlike {} Profile.fields ∧
      Record.fieldNames Profile.fields =
        ["app_name", "fiscal_start_month", "display_date_format"] := by
  refine ⟨Codec.readsFormsAlike_record Transaction.fields_lawful Transaction.fields_steady ?_
      (Transaction.fields_readsBack _), rfl,
    Codec.readsFormsAlike_record Profile.fields_lawful Profile.fields_steady ?_ ?_, rfl⟩
  · simp only [Transaction.fields, List.forall_mem_cons]
    exact ⟨rfl, rfl, rfl, rfl, rfl, rfl, rfl, rfl, rfl, rfl, rfl, rfl, rfl, by rintro _ ⟨⟩⟩
  · simp only [Profile.fields, List.forall_mem_cons]
    exact ⟨rfl, rfl, rfl, by rintro _ ⟨⟩⟩
  · simp only [Profile.fields, List.forall_mem_cons]
    exact ⟨.string _, .natural (by decide) (by decide), .string _,
      by rintro _ ⟨⟩⟩

/-- The number seven, as it is written. -/
def sevenTree : Tree :=
  .number ⟨false, ['7'], [], none, List.forall_mem_singleton.mpr rfl, List.cons_ne_nil _ _, nofun,
    nofun⟩

/-- The name of amounts, with an escape. -/
def amountMarks : List Mark :=
  [.unit ['0', '0', '6', '1'] ⟨rfl, List.all_eq_true.mp rfl⟩, .plain 'm' (by decide),
    .plain 'o' (by decide), .plain 'u' (by decide), .plain 'n' (by decide), .plain 't' (by decide)]

theorem forms_read_alike_spelled :
    Transaction.codec.read "[null, 7]" = .ok { amount := ⟨7, by decide, by decide⟩ } ∧
      Transaction.codec.read "\x7b\"x\": [], \"\\u0061mount\": 7\x7d" =
        .ok { amount := ⟨7, by decide, by decide⟩ } := by
  have harray : Transaction.codec.read "[null, 7]" =
      .ok { amount := ⟨7, by decide, by decide⟩ } := by
    decide +kernel
  refine ⟨harray, ?_⟩
  let names := Record.fieldNames Transaction.fields
  let standard := StandardTree Transaction.fields .blank
  let spelled : List (String × Tree) := [("x", .array []), ("amount", sevenTree)]
  have hnull : standard "account" .null :=
    ⟨_, List.mem_cons_self, rfl, "null", ⟨[], .null rfl, rfl⟩, rfl⟩
  have listed : (Form.positional [.null, sevenTree]).Alike names standard
      (.named [("account", .null), ("amount", sevenTree)]) :=
    .listed (by decide)
  have omitted : (Form.named [("account", .null), ("amount", sevenTree)]).Alike names standard
      (.named [("amount", sevenTree)]) :=
    @Form.Alike.omitted _ names standard [] _ _ _ (.of_nodup (by decide)) (by decide) hnull
  have extended : (Form.named [("amount", sevenTree)]).Alike names standard
      (.named [("amount", sevenTree), ("x", .array [])]) :=
    @Form.Alike.extended _ names standard [_] [_] (.of_nodup (by decide))
      (List.forall_mem_singleton.mpr (by decide))
  have permuted : (Form.named [("amount", sevenTree), ("x", .array [])]).Alike names standard
      (.named spelled) :=
    .permuted (.of_nodup (by decide)) (.swap _ _ _)
  have alike := listed.trans (omitted.trans (extended.trans permuted))
  have hfrom : (Form.positional [.null, sevenTree]).WrittenAs "[null, 7]" :=
    ⟨_, .positional _, [],
      .array rfl (.item rfl (.null rfl) (.item rfl (.number rfl) (.noItem rfl))), rfl⟩
  have hto : (Form.named spelled).WrittenAs
      "\x7b\"x\": [], \"\\u0061mount\": 7\x7d" := by
    refine ⟨.object [([.plain 'x' (by decide)], .array []), (amountMarks, sevenTree)],
      .named (.cons ⟨by decide, rfl⟩ (.cons ⟨by decide, rfl⟩ .nil)), [], ?_, rfl⟩
    exact .object rfl (.member rfl rfl rfl (.array rfl (.noItem rfl))
      (.member rfl rfl rfl (.number rfl) (.noMember rfl)))
  exact (forms_read_alike.1.texts _ _ alike _ _ hfrom hto _).mp harray

end Posting
