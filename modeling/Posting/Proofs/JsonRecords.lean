import Posting.Json.Record
import Posting.Proofs.JsonCodecs

/-! # Records that read back what they write

A record is written as an object with an entry for each field.  The entries are read one by one,
each into the field of its name, so that the record is taken over field by field
(`Record.scanEntries_writeEntries`).

`Codec.ReadsBack.record` is the result: a record reads back if its fields do, if no two of them
share a name, and if they make up the record. -/

namespace Posting.Json

/-! ### Objects -/

theorem nextName_closing (first : Bool) {space : List Char} (hspace : AllSpace space)
    (rest : List Char) : nextName first (space ++ closing :: rest) = .ok (none, rest) := by
  unfold nextName
  rw [skipSpace_append hspace, skipSpace_cons (by decide)]
  rfl

theorem nextName_first {space : List Char} (hspace : AllSpace space) (name : String)
    (rest : List Char) :
    nextName true (space ++ (stringText name ++ rest)) = .ok (some name, rest) := by
  unfold nextName
  rw [skipSpace_append hspace, stringText_append, skipSpace_cons (by decide)]
  show (scanString _).map _ = _
  rw [scanString_stringText, ok_map]

theorem nextName_comma {space : List Char} (hspace : AllSpace space) (name : String)
    (rest : List Char) :
    nextName false (',' :: (space ++ (stringText name ++ rest))) = .ok (some name, rest) := by
  have hclosing : ',' ≠ closing := by decide
  unfold nextName
  rw [skipSpace_cons (by decide)]
  simp only [hclosing, Bool.false_eq_true, if_false, if_true]
  rw [skipSpace_append hspace, stringText_append, skipSpace_cons (by decide)]
  show (scanString _).map _ = _
  rw [scanString_stringText, ok_map]

theorem scanColon_colon (rest : List Char) : scanColon (':' :: rest) = .ok rest := by
  unfold scanColon
  rw [skipSpace_cons (by decide)]
  rfl

theorem writeEntries_cons_append (spacing : Spacing) (depth : Nat) (name : String) (value : Value)
    (entries : List (String × Value)) (rest : List Char) :
    writeEntries spacing depth ((name, value) :: entries) ++ rest =
      ',' :: (spacing.beforeItem depth ++ (stringText name ++ ':' :: (spacing.afterColon ++
        (value.write spacing depth ++ (writeEntries spacing depth entries ++ rest))))) := by
  simp [writeEntries]

theorem write_object_append (spacing : Spacing) (depth : Nat) (name : String) (value : Value)
    (entries : List (String × Value)) (rest : List Char) :
    (Value.object ((name, value) :: entries)).write spacing depth ++ rest =
      objectBrackets.1 :: (spacing.beforeItem (depth + 1) ++
        (stringText name ++ ':' :: (spacing.afterColon ++ (value.write spacing (depth + 1) ++
          (writeEntries spacing (depth + 1) entries ++
            (spacing.beforeItem depth ++ closing :: rest)))))) := by
  simp [Value.write, objectBrackets, closing]

theorem length_le_writeEntries (spacing : Spacing) (depth : Nat)
    (entries : List (String × Value)) :
    entries.length ≤ (writeEntries spacing depth entries).length := by
  induction entries with
  | nil => exact Nat.zero_le _
  | cons entry entries ih =>
      simp only [writeEntries, List.length_append, List.length_cons]
      omega

theorem endsNumber_writeEntries (spacing : Spacing) (depth : Nat)
    (entries : List (String × Value)) {rest : List Char} (hrest : EndsNumber rest) :
    EndsNumber (writeEntries spacing depth entries ++ rest) := by
  cases entries with
  | nil => exact hrest
  | cons entry entries =>
      rw [writeEntries_cons_append]
      exact endsNumber_cons (by decide) _

/-! ### Records -/

namespace Record

variable {α : Type} {fields : List (RecordField α)} {a : α} {spacing : Spacing} {depth : Nat}

/-- The record with some of its fields taken over from another one. -/
def takeOver (a : α) (fields : List (RecordField α)) (b : α) : α :=
  fields.foldl (fun b field => field.set (field.get a) b) b

theorem find?_name (hnodup : (fields.map RecordField.name).Nodup) {field : RecordField α}
    (hfield : field ∈ fields) :
    fields.find? (fun other => other.name == field.name) = some field := by
  induction fields with
  | nil => cases hfield
  | cons first fields ih =>
      rw [List.map_cons, List.nodup_cons] at hnodup
      rcases List.mem_cons.mp hfield with rfl | hfield
      · exact List.find?_cons_of_pos (beq_self_eq_true _)
      · rw [List.find?_cons_of_neg]
        · exact ih hnodup.2 hfield
        · rw [beq_iff_eq]
          intro h
          exact hnodup.1 (h ▸ List.mem_map_of_mem hfield)

def fieldNames (fields : List (RecordField α)) : List String :=
  fields.map RecordField.name

theorem name_mem {field : RecordField α} (hfield : field ∈ fields) :
    field.name ∈ fieldNames fields :=
  List.mem_map_of_mem hfield

theorem unknown_of_find? {name : String}
    (h : fields.find? (fun field => field.name == name) = none) : name ∉ fieldNames fields := by
  intro hmem
  obtain ⟨field, hfield, rfl⟩ := List.mem_map.mp hmem
  exact List.find?_eq_none.mp h field hfield (beq_self_eq_true _)

theorem known_of_find? {name : String} {field : RecordField α}
    (h : fields.find? (fun field => field.name == name) = some field) :
    field ∈ fields ∧ field.name = name := by
  have hname := List.find?_some h
  exact ⟨List.mem_of_find?_eq_some h, beq_iff_eq.mp hname⟩

theorem scanEntries_field (hspacing : spacing.Blank)
    (hnodup : (fields.map RecordField.name).Nodup) {field : RecordField α}
    (hfield : field ∈ fields) (hread : field.codec.ReadsBack (field.get a)) {seen : List String}
    (hseen : field.name ∉ seen) {first : Bool} {cs rest : List Char} (hrest : EndsNumber rest)
    (hname : nextName first cs = .ok (some field.name, ':' :: (spacing.afterColon ++
      ((field.codec.encode (field.get a)).write spacing depth ++ rest))))
    (c : Char) (bound : List Char) (b : α) :
    scanEntries fields (c :: bound) seen first b cs =
      scanEntries fields bound (field.name :: seen) false (field.set (field.get a) b) rest := by
  have hnot : seen.contains field.name = false := by
    rw [List.contains_eq_mem, decide_eq_false hseen]
  rw [scanEntries, hname, ok_bind]
  simp only [find?_name hnodup hfield, hnot, Bool.false_eq_true, if_false]
  rw [scanColon_colon, ok_bind]
  simp only [RecordField.scan]
  rw [hread.scan spacing hspacing depth _ _ hspacing.afterColon hrest, ok_map, ok_bind]

theorem scanEntries_writeEntries (hspacing : spacing.Blank)
    (hnodup : (fields.map RecordField.name).Nodup) {space : List Char} (hspace : AllSpace space)
    (rest : List Char) {later : List (RecordField α)} (hlater : ∀ field ∈ later, field ∈ fields)
    (hnodup' : (later.map RecordField.name).Nodup)
    (hread : ∀ field ∈ later, field.codec.ReadsBack (field.get a)) {seen : List String}
    (hseen : ∀ field ∈ later, field.name ∉ seen) (bound : List Char)
    (hbound : later.length < bound.length) (b : α) :
    scanEntries fields bound seen false b
        (writeEntries spacing depth (later.map (RecordField.entry a)) ++
          (space ++ closing :: rest)) =
      .ok (takeOver a later b, rest) := by
  induction later generalizing seen bound b with
  | nil =>
      obtain ⟨c, bound, rfl⟩ := List.exists_cons_of_length_pos hbound
      rw [List.map_nil, writeEntries, List.nil_append, scanEntries, nextName_closing _ hspace,
        ok_bind]
      rfl
  | cons field later ih =>
      obtain ⟨c, bound, rfl⟩ := List.exists_cons_of_length_pos (Nat.zero_lt_of_lt hbound)
      rw [List.map_cons, List.nodup_cons] at hnodup'
      have hfresh : ∀ other ∈ later, other.name ∉ field.name :: seen := by
        intro other hother hmem
        rcases List.mem_cons.mp hmem with heq | hmem
        · exact hnodup'.1 (heq ▸ List.mem_map_of_mem hother)
        · exact hseen other (List.mem_cons_of_mem _ hother) hmem
      rw [List.map_cons, RecordField.entry, writeEntries_cons_append,
        scanEntries_field hspacing hnodup (hlater field List.mem_cons_self)
          (hread field List.mem_cons_self) (hseen field List.mem_cons_self)
          (endsNumber_writeEntries spacing depth _
            ((endsNumber_cons (by decide) rest).space_append hspace))
          (nextName_comma (hspacing.beforeItem depth) field.name _)]
      exact ih (fun other h => hlater other (List.mem_cons_of_mem _ h)) hnodup'.2
        (fun other h => hread other (List.mem_cons_of_mem _ h)) hfresh bound
        (Nat.lt_of_succ_lt_succ hbound) _

theorem scanEntries_object (hspacing : spacing.Blank) {before space : List Char}
    (hbefore : AllSpace before) (hspace : AllSpace space) (rest : List Char)
    {field : RecordField α} (hnodup : ((field :: fields).map RecordField.name).Nodup)
    (hread : ∀ other ∈ field :: fields, other.codec.ReadsBack (other.get a)) (bound : List Char)
    (hbound : fields.length + 1 < bound.length) (b : α) :
    scanEntries (field :: fields) bound [] true b
        (before ++ (stringText field.name ++ ':' :: (spacing.afterColon ++
          ((field.codec.encode (field.get a)).write spacing depth ++
            (writeEntries spacing depth (fields.map (RecordField.entry a)) ++
              (space ++ closing :: rest)))))) =
      .ok (takeOver a (field :: fields) b, rest) := by
  obtain ⟨c, bound, rfl⟩ := List.exists_cons_of_length_pos (Nat.zero_lt_of_lt hbound)
  have hnames := List.nodup_cons.mp hnodup
  have hfresh : ∀ other ∈ fields, other.name ∉ [field.name] := by
    intro other hother hmem
    rw [List.mem_singleton] at hmem
    exact hnames.1 (hmem ▸ List.mem_map_of_mem hother)
  rw [scanEntries_field hspacing hnodup List.mem_cons_self (hread field List.mem_cons_self)
    List.not_mem_nil
    (endsNumber_writeEntries spacing depth _ ((endsNumber_cons (by decide) rest).space_append hspace))
    (nextName_first hbefore field.name _)]
  exact scanEntries_writeEntries hspacing hnodup hspace rest
    (fun other h => List.mem_cons_of_mem field h) hnames.2
    (fun other h => hread other (List.mem_cons_of_mem field h)) hfresh bound
    (Nat.lt_of_succ_lt_succ hbound) _

end Record

/-- **A record reads back** if its fields do, have different names, and make up the record. -/
theorem Codec.ReadsBack.record {α : Type} {kind : String} {standard a : α}
    {fields : List (RecordField α)} (hnodup : (fields.map RecordField.name).Nodup)
    (hread : ∀ field ∈ fields, field.codec.ReadsBack (field.get a))
    (hwhole : Record.takeOver a fields standard = a) :
    (Codec.record kind standard fields).ReadsBack a := by
  cases fields with
  | nil =>
      refine ⟨fun _ _ => ⟨objectBrackets.1, _, rfl, by decide, by decide⟩,
        fun _ _ _ space rest hspace _ => ?_⟩
      show (scanHead (space ++ objectBrackets.1 :: closing :: rest) >>= _) = _
      rw [scanHead_append hspace, ← hwhole]
      rfl
  | cons field fields =>
      refine ⟨fun _ _ => ⟨objectBrackets.1, _, rfl, by decide, by decide⟩,
        fun spacing hspacing depth space rest hspace _ => ?_⟩
      show (scanHead (space ++
        ((Value.object (RecordField.entry a field :: fields.map (RecordField.entry a))).write
          spacing depth ++ rest)) >>= _) = _
      rw [scanHead_append hspace, RecordField.entry, write_object_append]
      show Record.scanEntries (field :: fields) _ [] true standard _ = _
      rw [Record.scanEntries_object hspacing (hspacing.beforeItem (depth + 1))
        (hspacing.beforeItem depth) rest hnodup hread, hwhole]
      -- each entry takes at least one character, so the text bounds the number of entries
      have hentries := length_le_writeEntries spacing (depth + 1)
        (fields.map (RecordField.entry a))
      simp only [stringText, List.length_append, List.length_cons, List.length_map] at hentries ⊢
      omega

end Posting.Json
