import Posting.Files.Tree
import Posting.Proofs.DateReading
import Posting.Proofs.JsonRecords
import Posting.Run
import Posting.Sample

/-! # Files of transactions read back

Every field of a transaction reads back, whatever it holds (`Transaction.fields_readsBack`), and the
fields make up the transaction, so that a file gives back the transactions that it was made of.

* `Transaction.fromJson_toJson` says so of the text.
* `load_toJson` says so of a file in any tree, which stays as it is. -/

namespace Posting

open Calendar Files Json

/-! ### Fields -/

theorem Amount.codec_readsBack (a : Amount) : Amount.codec.ReadsBack a := by
  refine .ofHead (.number (.integer a.minor)) ?_ (fun _ _ => startsValue_integer a.minor)
    (fun _ _ _ hrest => scanHead_integer a.lower a.upper hrest)
  simp only [Amount.ofMinor?_eq_some_iff.mpr rfl]

theorem Date.codec_readsBack (d : Date) : Date.codec.ReadsBack d := by
  refine .refine (.text _ _) ?_
  rw [Date.read_text]
  rfl

theorem PolicyType.codec_readsBack (p : PolicyType) : PolicyType.codec.ReadsBack p := by
  cases p <;> exact .choice (by decide)

/-- A text that may be absent reads back: an empty text is not an absent one. -/
theorem nullableText_readsBack (s : Option String) :
    (Codec.nullable Codec.string).ReadsBack s := by
  refine .nullable (fun b _ => .string b) (fun b _ _ _ => ?_)
  show some '"' ≠ some 'n'
  decide

namespace Transaction

theorem fields_readsBack (t : Transaction) :
    ∀ field ∈ fields, field.codec.ReadsBack (field.get t) := by
  simp only [fields, List.forall_mem_cons]
  exact ⟨nullableText_readsBack _, Amount.codec_readsBack _, .string _, nullableText_readsBack _,
    Date.codec_readsBack _, PolicyType.codec_readsBack _, .string _, .string _, .string _,
    .string _, .string _, .string _, nullableText_readsBack _, by rintro _ ⟨⟩⟩

theorem codec_readsBack (t : Transaction) : Transaction.codec.ReadsBack t :=
  .record (by decide) t.fields_readsBack rfl

/-- **A text of transactions gives them back**, of any content. -/
theorem fromJson_toJson (transactions : List Transaction) :
    fromJson (toJson transactions) = .ok transactions :=
  (Codec.ReadsBack.list fun t _ => t.codec_readsBack).read_pretty

end Transaction

/-! ### Files -/

theorem fromUTF8?_toUTF8 (s : String) : String.fromUTF8? s.toUTF8 = some s :=
  dif_pos s.isValidUTF8

theorem run_read (tree : FileTree) (path : String) :
    (FileTree.access.read path).run tree = (tree.read path, tree) :=
  rfl

theorem run_readText {tree : FileTree} {path text : String}
    (hfile : tree.read path = .ok text.toUTF8) :
    (FileTree.access.readText path).run tree = (.ok text, tree) := by
  have hread (next : Except FileError ByteArray → StateM FileTree (Except FileError String)) :
      (FileTree.access.read path >>= next).run tree = (next (.ok text.toUTF8)).run tree := by
    rw [StateT.run_bind, run_read, hfile]
    rfl
  rw [Access.readText, hread]
  simp only [fromUTF8?_toUTF8]
  rfl

/-- **A file of transactions is loaded as it was written**, and loading leaves the files as they
are. -/
theorem load_toJson {tree : FileTree} {path : String} {transactions : List Transaction}
    (hfile : tree.read path = .ok (Transaction.toJson transactions).toUTF8) :
    (load FileTree.access path).run.run tree = (.ok transactions, tree) := by
  have htext (next : Except FileError String →
      ExceptT RunError (StateM FileTree) (List Transaction)) :
      ((FileTree.access.readText path : ExceptT RunError (StateM FileTree) _) >>= next).run.run
          tree =
        (next (.ok (Transaction.toJson transactions))).run.run tree := by
    rw [ExceptT.run_bind, StateT.run_bind]
    show (StateT.run (Except.ok <$> FileTree.access.readText path) tree >>= _) = _
    rw [StateT.run_map, run_readText hfile]
    rfl
  rw [load, htext]
  simp only [Transaction.fromJson_toJson]
  rfl

/-- Transactions at the edges of what there is: the least amount and the first year, a text that is
empty beside one that is absent, and characters that a text escapes. -/
def edgeTransactions : List Transaction :=
  [{ account := some "", amount := ⟨-0x8000000000000000, by decide, by decide⟩,
      description := "\"\\\n\u0001é", date := ⟨-262143, 1, 1, by decide⟩ },
    Transaction.blank, { Sample.householdPremium with date := ⟨12020, 2, 29, by decide⟩ }]

/-- A directory with a file of them. -/
def edgeTree : FileTree :=
  ⟨[(["in.json"], .file (Transaction.toJson edgeTransactions).toUTF8)]⟩

theorem load_edgeTree :
    edgeTree.read "in.json" = .ok (Transaction.toJson edgeTransactions).toUTF8 ∧
      (load FileTree.access "in.json").run.run edgeTree = (.ok edgeTransactions, edgeTree) := by
  have hfile : edgeTree.read "in.json" = .ok (Transaction.toJson edgeTransactions).toUTF8 := by
    rfl
  exact ⟨hfile, load_toJson hfile⟩

end Posting
