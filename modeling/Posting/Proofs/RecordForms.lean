import Mathlib.Tactic
import Posting.Json.Record
import Posting.Proofs.JsonRecords

/-! # The forms of a record

A record stands in an array, by the positions of its fields, or in an object, by their names.

* `Form.Alike` relates the forms that stand for the same record: with names in another order, with
  names that no field has, and without fields that are as in the standard record.
* `Record.Has` says of a record that it has what entries give for its fields.  `Form.Alike.has_iff`:
  it does not tell forms that are alike apart.
* `Codec.record_decode_eq_ok_iff`: what is read from a value is the record that has what its form
  gives. -/

namespace Posting.Json

variable {V : Type} {names : List String}

/-! ### Entries by their names -/

/-- No known name stands twice. -/
def KnownOnce (names : List String) (entries : List (String × V)) : Prop :=
  ((entries.map Prod.fst).filter (fun name => decide (name ∈ names))).Nodup

namespace KnownOnce

variable {entries entries' : List (String × V)}

theorem of_nodup (h : (entries.map Prod.fst).Nodup) : KnownOnce names entries :=
  h.filter _

theorem perm (h : KnownOnce names entries) (same : entries.Perm entries') :
    KnownOnce names entries' :=
  ((same.map Prod.fst).filter _).nodup_iff.mp h

theorem of_sublist (h : KnownOnce names entries) (hsub : entries'.Sublist entries) :
    KnownOnce names entries' :=
  List.Sublist.nodup ((hsub.map Prod.fst).filter _) h

theorem append_unknown (h : KnownOnce names entries) {extra : List (String × V)}
    (unknown : ∀ entry ∈ extra, entry.1 ∉ names) : KnownOnce names (entries ++ extra) := by
  have hnone : (extra.map Prod.fst).filter (fun name => decide (name ∈ names)) = [] := by
    simpa [List.filter_eq_nil_iff] using fun name value hmem => unknown (name, value) hmem
  unfold KnownOnce
  rwa [List.map_append, List.filter_append, hnone, List.append_nil]

theorem not_mem {name : String} {value : V} (h : KnownOnce names ((name, value) :: entries))
    (known : name ∈ names) : name ∉ entries.map Prod.fst := by
  unfold KnownOnce at h
  rw [List.map_cons, List.filter_cons_of_pos (by simpa using known), List.nodup_cons,
    List.mem_filter] at h
  exact fun hmem => h.1 ⟨hmem, by simpa using known⟩

end KnownOnce

/-- Entries of which no known name stands twice, and none is among the names `seen` before. -/
structure Unread (names seen : List String) (entries : List (String × V)) : Prop where
  once : KnownOnce names entries
  fresh : ∀ name ∈ seen, name ∉ entries.map Prod.fst

namespace Unread

variable {seen : List String} {entries : List (String × V)} {name : String} {value : V}

theorem of_once (once : KnownOnce names entries) : Unread names [] entries :=
  ⟨once, fun _ h => absurd h List.not_mem_nil⟩

theorem tail (h : Unread names seen ((name, value) :: entries)) : Unread names seen entries where
  once := h.once.of_sublist (List.sublist_cons_self _ _)
  fresh other hother hmem := h.fresh other hother (List.mem_cons_of_mem _ hmem)

theorem not_seen (h : Unread names seen ((name, value) :: entries)) :
    seen.contains name = false := by
  rw [List.contains_eq_mem, decide_eq_false]
  exact fun hmem => h.fresh name hmem List.mem_cons_self

theorem cons (h : Unread names seen ((name, value) :: entries)) (known : name ∈ names) :
    Unread names (name :: seen) entries where
  once := h.tail.once
  fresh := List.forall_mem_cons.mpr ⟨h.once.not_mem known, h.tail.fresh⟩

end Unread

theorem lookup_eq_none {name : String} {entries : List (String × V)}
    (h : name ∉ entries.map Prod.fst) : entries.lookup name = none := by
  rw [List.lookup_eq_none_iff]
  intro entry hentry
  rw [bne_iff_ne]
  rintro rfl
  exact h (List.mem_map_of_mem hentry)

theorem KnownOnce.lookup_eq_some_iff {entries : List (String × V)} (h : KnownOnce names entries)
    {name : String} (known : name ∈ names) {value : V} :
    entries.lookup name = some value ↔ (name, value) ∈ entries := by
  induction entries with
  | nil => simp
  | cons entry entries ih =>
      obtain ⟨other, value'⟩ := entry
      have htail := ih (h.of_sublist (List.sublist_cons_self _ _))
      by_cases hname : name = other
      · subst hname
        have hnot : (name, value) ∉ entries := fun hmem =>
          h.not_mem known (List.mem_map_of_mem hmem)
        rw [List.lookup_cons_self, List.mem_cons, Option.some.injEq, Prod.mk.injEq]
        simp [hnot, eq_comm]
      · rw [List.lookup_cons, beq_false_of_ne hname, List.mem_cons, htail, Prod.mk.injEq]
        simp [hname]

theorem KnownOnce.lookup_eq_of_perm {entries entries' : List (String × V)}
    (h : KnownOnce names entries) (same : entries.Perm entries') {name : String}
    (known : name ∈ names) : entries.lookup name = entries'.lookup name := by
  refine Option.ext fun value => ?_
  rw [h.lookup_eq_some_iff known, (h.perm same).lookup_eq_some_iff known, same.mem_iff]

/-! ### Forms -/

/-- The ways in which a record stands: by the positions of its fields, or by their names. -/
inductive Form (V : Type)
  | positional (values : List V)
  | named (entries : List (String × V))

namespace Form

/-- What a form gives for the fields of the names. -/
def entries (names : List String) : Form V → List (String × V)
  | positional values => names.zip values
  | named entries => entries

/-- A form has no more values than there are fields, and gives none of them twice. -/
def Proper (names : List String) : Form V → Prop
  | positional values => values.length ≤ names.length
  | named entries => KnownOnce names entries

/-- The forms that stand for the same record; `standard` are the values that say of a field what it
is anyway. -/
inductive Alike (names : List String) (standard : String → V → Prop) : Form V → Form V → Prop
  /-- An array of the first so many fields, and the object with their names. -/
  | listed {values : List V} (fits : values.length ≤ names.length) :
      Alike names standard (positional values) (named (names.zip values))
  /-- The entries of an object in another order. -/
  | permuted {entries entries' : List (String × V)} (once : KnownOnce names entries)
      (same : entries.Perm entries') : Alike names standard (named entries) (named entries')
  /-- More entries, with names that no field has. -/
  | extended {entries extra : List (String × V)} (once : KnownOnce names entries)
      (unknown : ∀ entry ∈ extra, entry.1 ∉ names) :
      Alike names standard (named entries) (named (entries ++ extra))
  /-- One entry less, where it says what the field is anyway. -/
  | omitted {front back : List (String × V)} {name : String} {value : V}
      (once : KnownOnce names (front ++ (name, value) :: back)) (known : name ∈ names)
      (anyway : standard name value) :
      Alike names standard (named (front ++ (name, value) :: back)) (named (front ++ back))
  | symm {form form' : Form V} (h : Alike names standard form form') :
      Alike names standard form' form
  | trans {form form' form'' : Form V} (h : Alike names standard form form')
      (h' : Alike names standard form' form'') : Alike names standard form form''

variable {standard : String → V → Prop} {form form' : Form V}

theorem map_fst_zip_sublist (names : List String) (values : List V) :
    ((names.zip values).map Prod.fst).Sublist names := by
  induction names generalizing values with
  | nil => exact List.nil_sublist _
  | cons name names ih =>
      cases values with
      | nil => exact List.nil_sublist _
      | cons value values => exact (ih values).cons_cons name

theorem knownOnce_zip (hnodup : names.Nodup) (values : List V) :
    KnownOnce names (names.zip values) :=
  .of_nodup (hnodup.sublist (map_fst_zip_sublist names values))

theorem Alike.proper (hnodup : names.Nodup) (h : form.Alike names standard form') :
    form.Proper names ∧ form'.Proper names := by
  induction h with
  | listed fits => exact ⟨fits, knownOnce_zip hnodup _⟩
  | permuted once same => exact ⟨once, once.perm same⟩
  | extended once unknown => exact ⟨once, once.append_unknown unknown⟩
  | omitted once _ _ =>
      exact ⟨once, once.of_sublist (List.Sublist.append_left (List.sublist_cons_self _ _) _)⟩
  | symm _ ih => exact ih.symm
  | trans _ _ ih ih' => exact ⟨ih.1, ih'.2⟩

end Form

/-! ### Records -/

namespace Record

variable {α : Type} {fields : List (RecordField α)}

/-- The fields of a record have names of their own, are set one without another, and make up the
record. -/
structure Lawful (fields : List (RecordField α)) : Prop where
  nodup : (fieldNames fields).Nodup
  get_set : ∀ field ∈ fields, ∀ b a, field.get (field.set b a) = b
  get_set_of_ne : ∀ field ∈ fields, ∀ other ∈ fields, other.name ≠ field.name →
    ∀ b a, other.get (field.set b a) = other.get a
  ext : ∀ a a', (∀ field ∈ fields, field.get a = field.get a') → a = a'

/-- What a field holds: the standard if no value is given for it, and else what the value stands
for. -/
def Holds {β : Type} (reads : V → β → Prop) (standard : β) : Option V → β → Prop
  | none, b => b = standard
  | some value, b => reads value b

variable {reads : (field : RecordField α) → V → field.β → Prop} {b a : α}
  {entries : List (String × V)}

/-- The record has what entries give for its fields, and the rest from another record. -/
def Has (reads : (field : RecordField α) → V → field.β → Prop) (fields : List (RecordField α))
    (b : α) (entries : List (String × V)) (a : α) : Prop :=
  ∀ field ∈ fields, Holds (reads field) (field.get b) (entries.lookup field.name) (field.get a)

theorem has_nil_iff (lawful : Lawful fields) : Has reads fields b [] a ↔ b = a := by
  constructor
  · intro h
    exact lawful.ext b a fun field hfield => (h field hfield).symm
  · rintro rfl
    exact fun _ _ => rfl

theorem has_cons_unknown_iff {name : String} (unknown : name ∉ fieldNames fields) (value : V) :
    Has reads fields b ((name, value) :: entries) a ↔ Has reads fields b entries a := by
  refine forall₂_congr fun field hfield => ?_
  have hne : field.name ≠ name := fun h => unknown (h ▸ name_mem hfield)
  rw [List.lookup_cons, beq_false_of_ne hne]

theorem has_cons_known_iff (lawful : Lawful fields) {field : RecordField α}
    (hfield : field ∈ fields) (fresh : field.name ∉ entries.map Prod.fst) (value : V) :
    Has reads fields b ((field.name, value) :: entries) a ↔
      reads field value (field.get a) ∧ Has reads fields (field.set (field.get a) b) entries a := by
  have hself : ((field.name, value) :: entries).lookup field.name = some value :=
    List.lookup_cons_self
  have hother {other : RecordField α} (hother : other ∈ fields) (hne : other.name ≠ field.name) :
      Holds (reads other) (other.get b) (((field.name, value) :: entries).lookup other.name)
          (other.get a) ↔
        Holds (reads other) (other.get (field.set (field.get a) b)) (entries.lookup other.name)
          (other.get a) := by
    rw [List.lookup_cons, beq_false_of_ne hne,
      lawful.get_set_of_ne field hfield other hother hne]
  constructor
  · intro h
    have hvalue := h field hfield
    rw [hself] at hvalue
    refine ⟨hvalue, fun other hmem => ?_⟩
    by_cases hname : other.name = field.name
    · obtain rfl := List.inj_on_of_nodup_map lawful.nodup hmem hfield hname
      rw [lookup_eq_none fresh]
      exact (lawful.get_set other hfield _ b).symm
    · exact (hother hmem hname).mp (h other hmem)
  · rintro ⟨hvalue, h⟩ other hmem
    by_cases hname : other.name = field.name
    · obtain rfl := List.inj_on_of_nodup_map lawful.nodup hmem hfield hname
      rwa [hself]
    · exact (hother hmem hname).mpr (h other hmem)

end Record

/-- **A record has what is given in one form if it has what is given in another that is alike.** -/
theorem Form.Alike.has_iff {α : Type} {fields : List (RecordField α)}
    {reads : (field : RecordField α) → V → field.β → Prop} {b : α} {standard : String → V → Prop}
    (hstandard : ∀ field ∈ fields, ∀ value, standard field.name value →
      ∀ x, reads field value x ↔ x = field.get b)
    {form form' : Form V} (h : form.Alike (Record.fieldNames fields) standard form') (a : α) :
    Record.Has reads fields b (form.entries (Record.fieldNames fields)) a ↔
      Record.Has reads fields b (form'.entries (Record.fieldNames fields)) a := by
  induction h with
  | listed _ => exact Iff.rfl
  | permuted once same =>
      refine forall₂_congr fun field hfield => ?_
      rw [Form.entries, Form.entries, once.lookup_eq_of_perm same (Record.name_mem hfield)]
  | @extended entries extra once unknown =>
      refine forall₂_congr fun field hfield => ?_
      have hnone : extra.lookup field.name = none := by
        refine lookup_eq_none fun hmem => ?_
        obtain ⟨entry, hentry, hname⟩ := List.mem_map.mp hmem
        exact unknown entry hentry (hname ▸ Record.name_mem hfield)
      rw [Form.entries, Form.entries, List.lookup_append, hnone, Option.or_none]
  | @omitted front back name value once known anyway =>
      refine forall₂_congr fun field hfield => ?_
      have hmiddle := once.perm List.perm_middle
      rw [Form.entries, Form.entries,
        once.lookup_eq_of_perm List.perm_middle (Record.name_mem hfield)]
      by_cases hname : field.name = name
      · subst hname
        rw [List.lookup_cons_self, lookup_eq_none (hmiddle.not_mem known)]
        exact hstandard field hfield value anyway _
      · rw [List.lookup_cons, beq_false_of_ne hname]
  | symm _ ih => exact ih.symm
  | trans _ _ ih ih' => exact ih.trans ih'

/-! ### Values -/

/-- The value that has a form. -/
def Form.value : Form Value → Value
  | positional values => .array values
  | named entries => .object entries

namespace Record

variable {α : Type} {fields : List (RecordField α)} {a b : α}

/-- What a field is read as from a value. -/
def Decodes (field : RecordField α) (value : Value) (x : field.β) : Prop :=
  field.codec.decode value = .ok x

/-- **The entries of an object are read into the record that has them**, each field at most once. -/
theorem decodeEntries_eq_ok_iff (lawful : Lawful fields) {seen : List String}
    {entries : List (String × Value)} (unread : Unread (fieldNames fields) seen entries) :
    decodeEntries fields seen entries b = .ok a ↔ Has Decodes fields b entries a := by
  induction entries generalizing seen b with
  | nil => rw [decodeEntries, Except.ok.injEq, has_nil_iff lawful]
  | cons entry entries ih =>
      obtain ⟨name, value⟩ := entry
      rw [decodeEntries]
      split
      · next hfind => rw [has_cons_unknown_iff (unknown_of_find? hfind), ih unread.tail]
      · next field hfind =>
          obtain ⟨hfield, rfl⟩ := known_of_find? hfind
          have hnot := unread.once.not_mem (name_mem hfield)
          have hrest {c : α} : decodeEntries fields (field.name :: seen) entries c = .ok a ↔
              Has Decodes fields c entries a :=
            ih (unread.cons (name_mem hfield))
          rw [unread.not_seen, if_neg Bool.false_ne_true, bind_eq_ok_iff,
            has_cons_known_iff lawful hfield hnot]
          constructor
          · rintro ⟨c, hdecode, h⟩
            obtain ⟨x, hx, rfl⟩ := map_eq_ok_iff.mp hdecode
            have hhas := hrest.mp h
            -- no later entry is of the field
            have hget := hhas field hfield
            rw [lookup_eq_none hnot, Holds, lawful.get_set field hfield] at hget
            rw [hget]
            exact ⟨hx, hhas⟩
          · rintro ⟨hvalue, h⟩
            exact ⟨_, map_eq_ok_iff.mpr ⟨_, hvalue, rfl⟩, hrest.mpr h⟩

/-- The items of an array are read like the entries of their names. -/
theorem decodeItems_eq (hnodup : (fieldNames fields).Nodup) {later : List (RecordField α)}
    (hlater : ∀ field ∈ later, field ∈ fields) (hnames : (fieldNames later).Nodup)
    {seen : List String} (hseen : ∀ field ∈ later, field.name ∉ seen) (values : List Value)
    (b : α) :
    decodeItems later values b = decodeEntries fields seen ((fieldNames later).zip values) b := by
  induction later generalizing values seen b with
  | nil => rfl
  | cons field later ih =>
      cases values with
      | nil => rfl
      | cons value values =>
          rw [List.forall_mem_cons] at hlater hseen
          rw [fieldNames, List.map_cons, List.nodup_cons] at hnames
          have hnot : seen.contains field.name = false := by
            rw [List.contains_eq_mem, decide_eq_false hseen.1]
          have hfresh : ∀ other ∈ later, other.name ∉ field.name :: seen := by
            intro other hother hmem
            rcases List.mem_cons.mp hmem with heq | hmem
            · exact hnames.1 (heq ▸ List.mem_map_of_mem hother)
            · exact hseen.2 other hother hmem
          rw [decodeItems, fieldNames, List.map_cons, List.zip_cons_cons, decodeEntries,
            find?_name hnodup hlater.1]
          simp only [hnot, Bool.false_eq_true, if_false]
          exact congrArg _ (funext fun c => ih hlater.2 hnames.2 hfresh values c)

end Record

namespace Codec

variable {α : Type} {kind : String} {standard a : α} {fields : List (RecordField α)}

/-- **An array is read like the object with the names of its items**, with the same faults. -/
theorem record_decode_array (hnodup : (Record.fieldNames fields).Nodup) {values : List Value}
    (fits : values.length ≤ fields.length) :
    (record kind standard fields).decode (.array values) =
      (record kind standard fields).decode (.object ((Record.fieldNames fields).zip values)) := by
  simp only [record, if_neg (Nat.not_lt.mpr fits)]
  rw [Record.decodeItems_eq hnodup (fun _ h => h) hnodup (fun _ _ => List.not_mem_nil)]
  cases Record.decodeEntries fields [] ((Record.fieldNames fields).zip values) standard <;> rfl

theorem record_decode_ne_ok {values : List Value} (h : fields.length < values.length) :
    (record kind standard fields).decode (.array values) ≠ .ok a := by
  intro hdecode
  obtain ⟨c, -, hc⟩ := bind_eq_ok_iff.mp hdecode
  rw [if_pos h] at hc
  cases hc

/-- **What is read from a value is the record that has what the form of the value gives.** -/
theorem record_decode_eq_ok_iff (lawful : Record.Lawful fields) {form : Form Value}
    (proper : form.Proper (Record.fieldNames fields)) :
    (record kind standard fields).decode form.value = .ok a ↔
      Record.Has Record.Decodes fields standard (form.entries (Record.fieldNames fields)) a := by
  have hentries {entries : List (String × Value)}
      (once : KnownOnce (Record.fieldNames fields) entries) :=
    Record.decodeEntries_eq_ok_iff (a := a) (b := standard) lawful (.of_once once)
  cases form with
  | positional values =>
      have fits : values.length ≤ (Record.fieldNames fields).length := proper
      rw [Record.fieldNames, List.length_map] at fits
      rw [Form.value, record_decode_array lawful.nodup fits]
      exact hentries (Form.knownOnce_zip lawful.nodup values)
  | named entries => exact hentries proper

end Codec

end Posting.Json
