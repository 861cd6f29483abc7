import Posting.Proofs.JsonCompleteness
import Posting.Proofs.RecordForms
import Posting.Proofs.RecordReading

/-! # The texts of a record

`Codec.Takes codec tree a` says that the codec reads a tree so wherever it stands, with any space
around its parts, and `Codec.Steady codec` that it reads nothing but what it takes so.  The
combinators of codecs keep it: `Steady.text`, `Steady.ofInteger`, `Steady.refine`, `Steady.nullable`
and `Steady.choice`.

* `Codec.record_read_eq_ok_iff`: what is read from a text is the record that has what the form of the
  text gives.
* `Codec.ReadsFormsAlike` says of a record that it is read alike from all its forms, of values and of
  texts, and `Codec.readsFormsAlike_record` that it is so if its fields are steady. -/

namespace Posting.Json

namespace Codec

variable {α β : Type} {codec : Codec α}

/-- The codec reads the tree so wherever it stands. -/
def Takes (codec : Codec α) (tree : Tree) (a : α) : Prop :=
  ∀ cs rest, Begins cs (.value tree) rest → EndsNumber rest → codec.scan cs = .ok (a, rest)

/-- Whatever the codec reads is a tree that it takes. -/
def Steady (codec : Codec α) : Prop :=
  codec.Sound codec.Takes

/-- What is sound for a meaning is steady if everything with the meaning is taken. -/
theorem Sound.steady {means : Tree → α → Prop} (h : codec.Sound means)
    (takes : ∀ tree a, means tree a → codec.Takes tree a) : codec.Steady := by
  intro cs a rest hscan
  obtain ⟨tree, hbegins, hmeans⟩ := h cs a rest hscan
  exact ⟨tree, hbegins, takes tree a hmeans⟩

theorem Takes.read {tree : Tree} {a : α} (h : codec.Takes tree a) {text : String}
    (written : Writes text tree) : codec.read text = .ok a := by
  obtain ⟨rest, hbegins, hrest⟩ := written
  have hends : EndsNumber rest := .of_skipSpace (hrest ▸ endsNumber_nil)
  exact readWith_eq_ok_iff.mpr ⟨rest, h _ rest hbegins hends, hrest⟩

theorem Steady.takes (h : codec.Steady) {tree : Tree} {a : α} {text : String}
    (written : Writes text tree) (hread : codec.read text = .ok a) : codec.Takes tree a := by
  obtain ⟨rest, hscan, hrest⟩ := readWith_eq_ok_iff.mp hread
  obtain ⟨tree', hbegins, htakes⟩ := h _ a rest hscan
  rwa [written.unique ⟨rest, hbegins, hrest⟩]

/-! ### Single values -/

theorem Steady.text (kind : String) : (Codec.text kind).Steady := by
  refine (Sound.text kind).steady ?_
  rintro _ s ⟨marks, rfl, htext⟩ cs rest hbegins hends
  show (scanHead cs >>= _) = _
  rw [scanHead_of_string hbegins htext]
  rfl

theorem Steady.string : Codec.string.Steady :=
  .text "a string"

theorem Steady.ofInteger {encode : α → Value} {accept : Head → Except ValueFault α}
    (h : ∀ head a, accept head = .ok a → ∃ k, head = .number (.integer k) ∧
      -0x8000000000000000 ≤ k ∧ k < 0x8000000000000000) :
    (Codec.ofHead encode accept).Steady := by
  intro cs a rest hscan
  obtain ⟨⟨head, behind⟩, hhead, hscan⟩ := bind_eq_ok_iff.mp hscan
  obtain ⟨a', haccept, hscan⟩ := bind_eq_ok_iff.mp hscan
  cases hscan
  obtain ⟨k, rfl, hlow, hhigh⟩ := h head a (liftValue_eq_ok_iff.mp haccept)
  obtain ⟨tree, hbegins, hk⟩ := isInteger_of_scanHead hhead
  refine ⟨tree, hbegins, fun cs' rest' hbegins' hends' => ?_⟩
  show (scanHead cs' >>= _) = _
  rw [scanHead_of_integer hbegins' hends' hk hlow hhigh, ok_bind]
  simp only [haccept, ok_bind]

theorem Steady.natural {bits : Nat} (hbits : bits ≤ 63) : (Codec.natural bits).Steady := by
  have hpow : 2 ^ bits ≤ 2 ^ 63 := Nat.pow_le_pow_right (by decide) hbits
  rw [natural_eq]
  refine .ofInteger fun head n haccept => ?_
  obtain ⟨rfl, hn⟩ := acceptNatural_eq_ok_iff.mp haccept
  exact ⟨n, rfl, by omega, by omega⟩

theorem Steady.refine {codec : Codec β} (h : codec.Steady) (encode : α → β)
    (accept : β → Except String α) : (codec.refine encode accept).Steady := by
  refine (Sound.refine h encode accept).steady ?_
  rintro tree a ⟨b, htakes, haccept⟩ cs rest hbegins hends
  exact refine_scan_eq_ok_iff.mpr ⟨b, htakes cs rest hbegins hends, haccept⟩

theorem Steady.nullable (h : codec.Steady) (hnull : ∀ a, ¬ codec.Takes .null a) :
    codec.nullable.Steady := by
  refine (Sound.nullable h).steady ?_
  intro tree a? hmeans cs rest hbegins hends
  cases a? with
  | none =>
      obtain rfl : tree = .null := hmeans
      cases hbegins with
      | null word =>
          unfold Codec.nullable
          simp only [word]
          rfl
  | some a =>
      have htakes : codec.Takes tree a := hmeans
      have hscan := htakes _ rest hbegins.skipSpace hends
      obtain ⟨c, tail, hcs, hkind, -⟩ := hbegins.kind_of
      have hn : c ≠ 'n' := by
        rintro rfl
        cases tree with
        | null => exact hnull a htakes
        | _ => cases hkind
      unfold Codec.nullable
      simp only
      split
      · next hcs' =>
          rw [hcs] at hcs'
          exact absurd (List.cons.inj hcs').1 hn
      · rw [hscan, ok_map]

theorem scanMemberName_of_begins {cs rest : List Char} {key : List Mark} {name : String}
    (quoted : BeginsString cs key rest) (htext : text? key = some name) :
    scanMemberName cs = .ok (name, rest) := by
  unfold scanMemberName
  rw [quoted]
  simp only [if_true]
  exact scanString_marks htext rest

theorem Steady.choice (name : α → String) (members : List (String × α)) :
    (Codec.choice name members).Steady := by
  refine (Sound.choice name members).steady ?_
  rintro tree a ⟨s, hname, hlookup⟩ cs rest hbegins hends
  have hpick : liftValue (pick members s) = .ok a :=
    liftValue_eq_ok_iff.mpr (pick_eq_ok_iff.mpr hlookup)
  have hopening : opening ≠ '"' := by decide
  unfold Codec.choice
  simp only
  rcases hname with ⟨marks, rfl, htext⟩ | ⟨key, rfl, htext⟩
  · cases hbegins with
    | string quoted =>
        rw [quoted]
        simp only [if_true]
        rw [scanString_marks htext, ok_bind, hpick, ok_bind]
  · cases hbegins with
    | object bracket members =>
        cases members with
        | member comma quoted colon value members =>
            cases comma
            cases members with
            | noMember bracket' =>
                rw [bracket]
                simp only [hopening, if_false]
                rw [if_pos (show opening = Char.ofNat 0x7B from rfl),
                  scanMemberName_of_begins quoted htext, ok_bind, hpick, ok_bind, scanColon_of_colon colon, ok_bind, scanHead_of_null value, ok_bind]
                have hunit : liftValue (acceptUnit .null) = .ok () := rfl
                dsimp only
                rw [hunit, ok_bind, bracket']
                rfl

end Codec

/-! ### Forms of trees -/

/-- An entry of an object, whose name is spelled out. -/
def Spells (entry : String × Tree) (member : List Mark × Tree) : Prop :=
  text? member.1 = some entry.1 ∧ member.2 = entry.2

/-- A tree that has a form. -/
inductive Form.Shapes : Form Tree → Tree → Prop
  | positional (trees : List Tree) : Shapes (.positional trees) (.array trees)
  | named {entries : List (String × Tree)} {members : List (List Mark × Tree)}
      (spelled : List.Forall₂ Spells entries members) : Shapes (.named entries) (.object members)

/-- A text that is written for a tree of a form. -/
def Form.WrittenAs (form : Form Tree) (text : String) : Prop :=
  ∃ tree, form.Shapes tree ∧ Writes text tree

theorem given_toList_iff {β : Type} {means : Tree → β → Prop} {standard b : β}
    {tree? : Option Tree} :
    Given means standard tree?.toList b ↔ Record.Holds means standard tree? b := by
  cases tree? <;> exact Iff.rfl

theorem valuesOf_eq {names : List String} {name : String} (known : name ∈ names)
    {entries : List (String × Tree)} {members : List (List Mark × Tree)}
    (spelled : List.Forall₂ Spells entries members) (once : KnownOnce names entries) :
    valuesOf name members = (entries.lookup name).toList := by
  induction spelled with
  | nil => rfl
  | @cons entry member entries members spells spelled ih =>
      obtain ⟨other, tree⟩ := entry
      obtain ⟨key, tree'⟩ := member
      obtain ⟨htext, rfl⟩ : text? key = some other ∧ tree' = tree := spells
      have htail := ih (once.of_sublist (List.sublist_cons_self _ _))
      by_cases hname : name = other
      · subst hname
        rw [valuesOf_cons_of_eq htext, htail, lookup_eq_none (once.not_mem known),
          List.lookup_cons_self]
        rfl
      · rw [valuesOf_cons_of_ne htext hname, htail, List.lookup_cons, beq_false_of_ne hname]

theorem lookup_zip {V : Type} {names : List String} (hnodup : names.Nodup) {position : Nat}
    {name : String} (hname : names[position]? = some name) (values : List V) :
    (names.zip values).lookup name = values[position]? := by
  induction names generalizing position values with
  | nil => cases hname
  | cons first names ih =>
      rw [List.nodup_cons] at hnodup
      cases values with
      | nil => rfl
      | cons value values =>
          cases position with
          | zero =>
              cases hname
              exact List.lookup_cons_self
          | succ position =>
              rw [List.getElem?_cons_succ] at hname
              have hne : name ≠ first := by
                rintro rfl
                exact hnodup.1 (List.mem_of_getElem? hname)
              rw [List.zip_cons_cons, List.lookup_cons, beq_false_of_ne hne,
                List.getElem?_cons_succ]
              exact ih hnodup.2 hname values

/-! ### Records -/

namespace Record

variable {α : Type} {fields : List (RecordField α)} {a b : α}

/-- What a field is read as from a tree. -/
def Takes (field : RecordField α) (tree : Tree) (x : field.β) : Prop :=
  field.codec.Takes tree x

/-- The fields with what they take. -/
def taken (fields : List (RecordField α)) : List (Reading α) :=
  fields.map (fun field => ⟨field, field.codec.Takes⟩)

theorem map_field_taken (fields : List (RecordField α)) :
    (taken fields).map Reading.field = fields := by
  rw [taken, List.map_map]
  exact List.map_id fields

theorem readable_taken (lawful : Lawful fields) (steady : ∀ field ∈ fields, field.codec.Steady) :
    Readable (taken fields) where
  nodup := by
    rw [taken, List.map_map]
    exact lawful.nodup
  sound := by
    rw [taken, List.forall_mem_map]
    exact steady
  get_set := by
    rw [taken, List.forall_mem_map]
    exact lawful.get_set
  get_set_of_ne := by
    simp only [taken, List.forall_mem_map]
    exact lawful.get_set_of_ne

theorem has_of_isWritten (lawful : Lawful fields) {form : Form Tree}
    (proper : form.Proper (fieldNames fields)) {tree : Tree} (shapes : form.Shapes tree)
    (h : IsWritten (taken fields) b tree a) :
    Has Takes fields b (form.entries (fieldNames fields)) a := by
  intro field hfield
  obtain ⟨position, hposition⟩ := List.mem_iff_getElem?.mp hfield
  have hreading : (taken fields)[position]? = some ⟨field, field.codec.Takes⟩ := by
    rw [taken, List.getElem?_map, hposition]
    rfl
  have hgiven := h.given position _ hreading
  cases shapes with
  | positional trees =>
      have hname : (fieldNames fields)[position]? = some field.name := by
        rw [fieldNames, List.getElem?_map, hposition]
        rfl
      rw [Form.entries, lookup_zip lawful.nodup hname]
      exact given_toList_iff.mp hgiven
  | named spelled =>
      have hvalues := valuesOf_eq (name_mem hfield) spelled proper
      change Given _ _ (valuesOf field.name _) _ at hgiven
      rw [hvalues] at hgiven
      exact given_toList_iff.mp hgiven

/-- **The entries of an object are scanned into the record that has them.** -/
theorem scanEntries_of_members (lawful : Lawful fields) {entries : List (String × Tree)}
    {members : List (List Mark × Tree)} (spelled : List.Forall₂ Spells entries members)
    {seen : List String} (unread : Unread (fieldNames fields) seen entries) {first : Bool}
    {cs rest : List Char} (h : Begins cs (.members first members) rest) {bound : List Char}
    (hbound : cs.length ≤ bound.length) (has : Has Takes fields b entries a) :
    scanEntries fields bound seen first b cs = .ok (a, rest) := by
  have hlength := h.length_lt
  obtain ⟨c, bound, rfl⟩ := List.exists_cons_of_length_pos (show 0 < bound.length by omega)
  induction spelled generalizing seen first cs bound b c with
  | nil =>
      cases h with
      | noMember bracket =>
          rw [scanEntries, nextName_of_bracket bracket, ok_bind, (has_nil_iff lawful).mp has]
  | @cons entry member entries members spells spelled ih =>
      obtain ⟨name, tree⟩ := entry
      obtain ⟨key, tree'⟩ := member
      obtain ⟨htext, rfl⟩ : text? key = some name ∧ tree' = tree := spells
      cases h with
      | @member _ _ more named behind between _ _ _ _ comma quoted colon value members =>
          have hbetween : between.length < cs.length :=
            (value.length_lt.trans ((length_lt_of_skipSpace colon).trans quoted.length_lt)).trans_le
              comma.length_le
          have hends := members.endsNumber_of_members
          have hpos := members.length_lt
          rw [List.length_cons] at hbound
          obtain ⟨d, bound, rfl⟩ :=
            List.exists_cons_of_length_pos (show 0 < bound.length by omega)
          rw [scanEntries, nextName_of_member comma quoted htext, ok_bind]
          simp only
          split
          · next hfind =>
              have has' := (has_cons_unknown_iff (unknown_of_find? hfind) tree').mp has
              rw [scanColon_of_colon colon, ok_bind, skipValue_of_begins value hends, ok_bind]
              exact ih unread.tail members has' hpos _ _ (by omega)
          · next field hfind =>
              obtain ⟨hfield, rfl⟩ := known_of_find? hfind
              have hnot := unread.once.not_mem (name_mem hfield)
              obtain ⟨htakes, has'⟩ := (has_cons_known_iff lawful hfield hnot tree').mp has
              have hscan : field.scan b behind = .ok (field.set (field.get a) b, between) := by
                rw [RecordField.scan, htakes behind between value hends, ok_map]
              rw [unread.not_seen, if_neg Bool.false_ne_true, scanColon_of_colon colon, ok_bind,
                hscan, ok_bind]
              exact ih (unread.cons (name_mem hfield)) members has' hpos _ _ (by omega)

theorem scanItems_of_items (lawful : Lawful fields) {later : List (RecordField α)}
    (hlater : ∀ field ∈ later, field ∈ fields) (hnames : (fieldNames later).Nodup)
    {trees : List Tree} (fits : trees.length ≤ later.length) {first : Bool} {cs rest : List Char}
    (h : Begins cs (.items first trees) rest)
    (has : Has Takes fields b ((fieldNames later).zip trees) a) :
    ∃ between, scanItems later first b cs = .ok (a, between) ∧ closeArray between = .ok rest := by
  induction later generalizing trees first cs b with
  | nil =>
      obtain rfl : trees = [] := List.length_eq_zero_iff.mp (Nat.le_zero.mp fits)
      cases h with
      | noItem bracket =>
          rw [scanItems, (has_nil_iff lawful).mp has]
          exact ⟨cs, rfl, closeArray_of_bracket bracket⟩
  | cons field later ih =>
      rw [scanItems]
      cases h with
      | noItem bracket =>
          rw [nextItem_of_bracket bracket, ok_bind, (has_nil_iff lawful).mp has]
          exact ⟨_, rfl, closeArray_bracket rest⟩
      | @item _ _ more between _ tree trees comma value items =>
          rw [List.forall_mem_cons] at hlater
          rw [fieldNames, List.map_cons, List.nodup_cons] at hnames
          have hnot : field.name ∉ ((fieldNames later).zip trees).map Prod.fst := fun hmem =>
            hnames.1 ((Form.map_fst_zip_sublist _ _).subset hmem)
          obtain ⟨htakes, has'⟩ := (has_cons_known_iff lawful hlater.1 hnot tree).mp has
          have hscan : field.scan b (skipSpace more) =
              .ok (field.set (field.get a) b, between) := by
            rw [RecordField.scan, htakes _ between value.skipSpace items.endsNumber_of_items,
              ok_map]
          rw [nextItem_of_item comma value, ok_bind]
          simp only [if_true]
          rw [hscan, ok_bind]
          exact ih hlater.2 hnames.2 (Nat.le_of_succ_le_succ fits) items has'

end Record

namespace Codec

variable {α : Type} {kind : String} {standard a : α} {fields : List (RecordField α)}

theorem isWritten_of_record_read (lawful : Record.Lawful fields)
    (steady : ∀ field ∈ fields, field.codec.Steady) {tree : Tree} {text : String}
    (written : Writes text tree) (hread : (record kind standard fields).read text = .ok a) :
    Record.IsWritten (Record.taken fields) standard tree a := by
  obtain ⟨rest, hscan, hrest⟩ := readWith_eq_ok_iff.mp hread
  have hsound := Sound.record (Record.readable_taken lawful steady) kind standard
  rw [Record.map_field_taken] at hsound
  obtain ⟨tree', hbegins, hwritten⟩ := hsound _ a rest hscan
  rwa [written.unique ⟨rest, hbegins, hrest⟩]

/-- **What is read from a text is the record that has what the form of the text gives.** -/
theorem record_read_eq_ok_iff (lawful : Record.Lawful fields)
    (steady : ∀ field ∈ fields, field.codec.Steady) {form : Form Tree}
    (proper : form.Proper (Record.fieldNames fields)) {text : String}
    (written : form.WrittenAs text) :
    (record kind standard fields).read text = .ok a ↔
      Record.Has Record.Takes fields standard (form.entries (Record.fieldNames fields)) a := by
  obtain ⟨tree, shapes, hwrites⟩ := written
  constructor
  · intro hread
    exact Record.has_of_isWritten lawful proper shapes
      (isWritten_of_record_read lawful steady hwrites hread)
  · intro has
    obtain ⟨rest, hbegins, hrest⟩ := hwrites
    refine readWith_eq_ok_iff.mpr ⟨rest, ?_, hrest⟩
    show (scanHead text.toList >>= _) = _
    cases shapes with
    | positional trees =>
        have fits : trees.length ≤ (Record.fieldNames fields).length := proper
        rw [Record.fieldNames, List.length_map] at fits
        cases hbegins with
        | array bracket items =>
            obtain ⟨between, hscan, hclose⟩ :=
              Record.scanItems_of_items lawful (fun _ h => h) lawful.nodup fits items has
            rw [scanHead_of_array bracket, ok_bind]
            simp only
            rw [hscan, ok_bind, hclose, ok_bind]
    | named spelled =>
        cases hbegins with
        | object bracket members =>
            rw [scanHead_of_object bracket, ok_bind]
            exact Record.scanEntries_of_members lawful spelled (.of_once proper) members
              (Nat.le_refl _) has

theorem record_read_ne_ok (lawful : Record.Lawful fields)
    (steady : ∀ field ∈ fields, field.codec.Steady) {trees : List Tree} {text : String}
    (written : Writes text (.array trees)) (h : fields.length < trees.length) :
    (record kind standard fields).read text ≠ .ok a := by
  intro hread
  have hwritten := isWritten_of_record_read lawful steady written hread
  rcases hwritten.form with ⟨entries, ⟨⟩⟩ | ⟨trees', ⟨⟩, hle⟩
  rw [Record.taken, List.length_map] at hle
  omega

end Codec

/-! ### Reading alike -/

section alike

variable {α : Type}

/-- Values that say of a field what it is in the standard record. -/
def StandardValue (fields : List (RecordField α)) (standard : α) (name : String) (value : Value) :
    Prop :=
  ∃ field ∈ fields, field.name = name ∧ field.codec.decode value = .ok (field.get standard)

/-- Trees that say of a field what it is in the standard record. -/
def StandardTree (fields : List (RecordField α)) (standard : α) (name : String) (tree : Tree) :
    Prop :=
  ∃ field ∈ fields, field.name = name ∧
    ∃ text, Writes text tree ∧ field.codec.read text = .ok (field.get standard)

/-- A record is read alike from all its forms, and arrays that are too long are refused. -/
structure Codec.ReadsFormsAlike (codec : Codec α) (standard : α) (fields : List (RecordField α)) :
    Prop where
  values : ∀ form form' : Form Value,
    form.Alike (Record.fieldNames fields) (StandardValue fields standard) form' →
      ∀ a, codec.decode form.value = .ok a ↔ codec.decode form'.value = .ok a
  texts : ∀ form form' : Form Tree,
    form.Alike (Record.fieldNames fields) (StandardTree fields standard) form' →
      ∀ text text', form.WrittenAs text → form'.WrittenAs text' →
        ∀ a, codec.read text = .ok a ↔ codec.read text' = .ok a
  long_values : ∀ values : List Value, fields.length < values.length →
    ∃ fault, codec.decode (.array values) = .error fault
  long_texts : ∀ (trees : List Tree) (text : String), fields.length < trees.length →
    Writes text (.array trees) → ∃ error, codec.read text = .error error
  /-- The standard is among the values that say so: it decodes as itself, and its text is read as
  itself. -/
  standard_decoded : ∀ field ∈ fields,
    field.codec.decode (field.codec.encode (field.get standard)) = .ok (field.get standard)
  standard_read : ∀ field ∈ fields,
    field.codec.read (field.codec.encode (field.get standard)).pretty = .ok (field.get standard)

/-- **Records whose fields are steady are read alike from all their forms.** -/
theorem Codec.readsFormsAlike_record {kind : String} {standard : α} {fields : List (RecordField α)}
    (lawful : Record.Lawful fields) (steady : ∀ field ∈ fields, field.codec.Steady)
    (hdecoded : ∀ field ∈ fields,
      field.codec.decode (field.codec.encode (field.get standard)) = .ok (field.get standard))
    (hread : ∀ field ∈ fields, field.codec.ReadsBack (field.get standard)) :
    (Codec.record kind standard fields).ReadsFormsAlike standard fields where
  values form form' alike a := by
    have proper := alike.proper lawful.nodup
    rw [record_decode_eq_ok_iff lawful proper.1, record_decode_eq_ok_iff lawful proper.2]
    refine alike.has_iff (fun field hfield value hstandard x => ?_) a
    obtain ⟨other, hother, hname, hvalue⟩ := hstandard
    obtain rfl := List.inj_on_of_nodup_map lawful.nodup hother hfield hname
    rw [Record.Decodes, hvalue, Except.ok.injEq, eq_comm]
  texts form form' alike text text' written written' a := by
    have proper := alike.proper lawful.nodup
    rw [record_read_eq_ok_iff lawful steady proper.1 written,
      record_read_eq_ok_iff lawful steady proper.2 written']
    refine alike.has_iff (fun field hfield tree hstandard x => ?_) a
    obtain ⟨other, hother, hname, text, hwrites, htext⟩ := hstandard
    obtain rfl := List.inj_on_of_nodup_map lawful.nodup hother hfield hname
    constructor
    · intro htakes
      have hx := Takes.read htakes hwrites
      rw [htext] at hx
      exact (Except.ok.inj hx).symm
    · rintro rfl
      exact (steady other hother).takes hwrites htext
  long_values _ h := exists_error_of_ne_ok fun _ => record_decode_ne_ok h
  long_texts _ _ h written :=
    exists_error_of_ne_ok fun _ => record_read_ne_ok lawful steady written h
  standard_decoded := hdecoded
  standard_read field hfield := (hread field hfield).read_pretty

end alike

end Posting.Json
