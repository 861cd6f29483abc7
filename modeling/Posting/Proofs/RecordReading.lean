import Posting.Proofs.JsonRecords
import Posting.Proofs.JsonScanning

/-! # What codecs read

`Codec.Sound codec means` says that whatever the codec takes off the front of a text is written there
as a value, and that the value means what the codec makes of it.  It is kept by the combinators of
codecs: `Sound.refine`, `Sound.nullable`, `Sound.choice`, `Sound.list` and `Sound.record`.

A record is read from an object or an array.  `Tree.given` are the values that stand there for a
field, and `Given` says what comes of them: the field is as in the standard record if there are
none, it is what the value means if there is one, and there are never more. -/

namespace Posting.Json

/-- Whatever the codec reads is written as a value that means it. -/
def Codec.Sound {α : Type} (codec : Codec α) (means : Tree → α → Prop) : Prop :=
  ∀ cs a rest, codec.scan cs = .ok (a, rest) →
    ∃ tree, Begins cs (.value tree) rest ∧ means tree a

/-- A value that is a text. -/
def Tree.IsText (tree : Tree) (s : String) : Prop :=
  ∃ marks, tree = .string marks ∧ text? marks = some s

/-- Null for what is absent, and another value for what is there. -/
def Tree.OrNull {α : Type} (means : Tree → α → Prop) (tree : Tree) : Option α → Prop
  | none => tree = .null
  | some a => means tree a

/-- The name of a member of a choice, alone or as the only name of an object with null. -/
def Tree.IsName (tree : Tree) (name : String) : Prop :=
  tree.IsText name ∨ ∃ key, tree = .object [(key, .null)] ∧ text? key = some name

/-- The head of a scalar, of which numbers are integers. -/
def Head.IsPlain : Head → Prop
  | .number (.float _) | .array | .object => False
  | _ => True

theorem Headed.plain {cs rest : List Char} {head : Head} (h : Headed cs head rest)
    (hplain : head.IsPlain) : ∃ tree, Begins cs (.value tree) rest ∧ head.Tells tree := by
  cases h with
  | scalar tells begins => exact ⟨_, begins, tells⟩
  | float x rest => exact hplain.elim
  | array bracket => exact hplain.elim
  | object bracket => exact hplain.elim

namespace Codec

variable {α β : Type} {means : Tree → α → Prop}

/-! ### Single values -/

theorem liftValue_eq_ok_iff {result : Except ValueFault α} {a : α} :
    liftValue result = .ok a ↔ result = .ok a :=
  mapError_eq_ok_iff

theorem Sound.ofHead {encode : α → Value} {accept : Head → Except ValueFault α}
    (h : ∀ head a, accept head = .ok a →
      head.IsPlain ∧ ∀ tree, head.Tells tree → means tree a) :
    (Codec.ofHead encode accept).Sound means := by
  intro cs a rest hscan
  obtain ⟨⟨head, behind⟩, hhead, hscan⟩ := bind_eq_ok_iff.mp hscan
  obtain ⟨a', haccept, hscan⟩ := bind_eq_ok_iff.mp hscan
  cases hscan
  obtain ⟨hplain, hmeans⟩ := h head a (liftValue_eq_ok_iff.mp haccept)
  obtain ⟨tree, hbegins, htells⟩ := (headed_of_scanHead hhead).plain hplain
  exact ⟨tree, hbegins, hmeans tree htells⟩

theorem Sound.text (kind : String) : (Codec.text kind).Sound Tree.IsText := by
  refine .ofHead fun head s haccept => ?_
  split at haccept
  · cases haccept
    refine ⟨trivial, fun tree htells => ?_⟩
    cases htells with
    | string htext => exact ⟨_, rfl, htext⟩
  · cases haccept

theorem Sound.string : Codec.string.Sound Tree.IsText :=
  .text "a string"

theorem Sound.refine {codec : Codec β} {meansBase : Tree → β → Prop} (h : codec.Sound meansBase)
    (encode : α → β) (accept : β → Except String α) :
    (codec.refine encode accept).Sound
      (fun tree a => ∃ b, meansBase tree b ∧ accept b = .ok a) := by
  intro cs a rest hscan
  obtain ⟨b, hb, haccept⟩ := refine_scan_eq_ok_iff.mp hscan
  obtain ⟨tree, hbegins, hmeans⟩ := h cs b rest hb
  exact ⟨tree, hbegins, b, hmeans, haccept⟩

theorem Sound.nullable {codec : Codec α} (h : codec.Sound means) :
    codec.nullable.Sound (Tree.OrNull means) := by
  intro cs a? rest hscan
  unfold Codec.nullable at hscan
  simp only at hscan
  split at hscan
  · next hcs =>
      obtain ⟨tail, hword, ⟨⟩⟩ := map_eq_ok_iff.mp hscan
      exact ⟨.null, .null (by rw [hcs, eq_append_of_scanWord hword]; rfl), rfl⟩
  · obtain ⟨⟨a, tail⟩, ha, ⟨⟩⟩ := map_eq_ok_iff.mp hscan
    obtain ⟨tree, hbegins, hmeans⟩ := h _ a tail ha
    exact ⟨tree, hbegins.of_skipSpace, hmeans⟩

theorem pick_eq_ok_iff {members : List (String × α)} {name : String} {a : α} :
    pick members name = .ok a ↔ members.lookup name = some a := by
  unfold pick
  cases members.lookup name with
  | none => exact ⟨nofun, nofun⟩
  | some b => rw [Except.ok.injEq, Option.some.injEq]

theorem of_scanMemberName {cs rest : List Char} {name : String}
    (h : scanMemberName cs = .ok (name, rest)) :
    ∃ key, BeginsString cs key rest ∧ text? key = some name := by
  unfold scanMemberName at h
  split at h
  · cases h
  · next c tail hcs =>
      split at h
      · next hquote =>
          obtain ⟨key, rfl, htext⟩ := of_scanString h
          exact ⟨key, by rw [BeginsString, hcs, hquote], htext⟩
      · split at h <;> cases h

theorem eq_null_of_acceptUnit {head : Head} (h : acceptUnit head = .ok ()) : head = .null := by
  unfold acceptUnit at h
  split at h
  · rfl
  · cases h

theorem choice_decode_eq_ok_iff (name : α → String) (members : List (String × α)) (value : Value)
    (a : α) : (Codec.choice name members).decode value = .ok a ↔
      ∃ s, members.lookup s = some a ∧ (value = .string s ∨ value = .object [(s, .null)]) := by
  unfold Codec.choice
  simp only
  split
  · next s =>
      rw [pick_eq_ok_iff]
      constructor
      · exact fun h => ⟨s, h, Or.inl rfl⟩
      · rintro ⟨_, h, heq | heq⟩
        · cases heq
          exact h
        · cases heq
  · next s beside =>
      simp only [bind_eq_ok_iff, pick_eq_ok_iff]
      constructor
      · rintro ⟨_, h, _, hunit, ⟨⟩⟩
        have hnull := eq_null_of_acceptUnit hunit
        cases beside with
        | null => exact ⟨s, h, Or.inr rfl⟩
        | bool b => cases hnull
        | number n => cases hnull
        | string t => cases hnull
        | array items => cases hnull
        | object entries => cases hnull
      · rintro ⟨_, h, heq | heq⟩
        · cases heq
        · cases heq
          exact ⟨a, h, (), rfl, rfl⟩
  · next hone =>
      refine ⟨nofun, ?_⟩
      rintro ⟨s, -, heq | heq⟩
      · cases heq
      · cases heq
        exact (hone s .null rfl).elim
  · next hstring hpair hobject =>
      refine ⟨nofun, ?_⟩
      rintro ⟨s, -, rfl | rfl⟩
      · exact (hstring s rfl).elim
      · exact (hobject _ rfl).elim

theorem Sound.choice (name : α → String) (members : List (String × α)) :
    (Codec.choice name members).Sound
      (fun tree a => ∃ s, tree.IsName s ∧ members.lookup s = some a) := by
  intro cs a rest hscan
  unfold Codec.choice at hscan
  simp only at hscan
  split at hscan
  · cases hscan
  · next c tail hcs =>
      split at hscan
      · next hquote =>
          obtain ⟨⟨s, behind⟩, hstring, hscan⟩ := bind_eq_ok_iff.mp hscan
          obtain ⟨a', hpick, hscan⟩ := bind_eq_ok_iff.mp hscan
          cases hscan
          obtain ⟨marks, rfl, htext⟩ := of_scanString hstring
          refine ⟨.string marks, .string (by rw [BeginsString, hcs, hquote]), s,
            Or.inl ⟨marks, rfl, htext⟩, ?_⟩
          exact pick_eq_ok_iff.mp (liftValue_eq_ok_iff.mp hpick)
      split at hscan
      · next hbrace =>
          obtain ⟨⟨s, named⟩, hname, hscan⟩ := bind_eq_ok_iff.mp hscan
          obtain ⟨a', hpick, hscan⟩ := bind_eq_ok_iff.mp hscan
          obtain ⟨behind, hcolon, hscan⟩ := bind_eq_ok_iff.mp hscan
          obtain ⟨⟨head, between⟩, hhead, hscan⟩ := bind_eq_ok_iff.mp hscan
          obtain ⟨⟨⟩, hunit, hscan⟩ := bind_eq_ok_iff.mp hscan
          obtain ⟨key, hkey, htext⟩ := of_scanMemberName hname
          cases eq_null_of_acceptUnit (liftValue_eq_ok_iff.mp hunit)
          obtain ⟨tree, hnull, htells⟩ := (headed_of_scanHead hhead).plain trivial
          cases htells
          split at hscan
          · cases hscan
          · next d end_ hbetween =>
              split at hscan
              · next hclosing =>
                  cases hscan
                  have hend : Begins between (.members false []) rest :=
                    .noMember (by rw [hbetween, hclosing])
                  refine ⟨.object [(key, .null)], .object (by rw [hcs, hbrace, opening])
                    (.member rfl hkey (of_scanColon hcolon) hnull hend), s,
                    Or.inr ⟨key, rfl, htext⟩, ?_⟩
                  exact pick_eq_ok_iff.mp (liftValue_eq_ok_iff.mp hpick)
              · cases hscan
      · cases hscan

/-! ### Arrays -/

theorem of_scanItems {codec : Codec α} (h : codec.Sound means) {bound : List Char}
    {done items : List α} {cs rest : List Char}
    (hscan : codec.scanItems bound done cs = .ok (items, rest)) :
    ∃ trees new tail, rest = ']' :: tail ∧ Begins cs (.items done.isEmpty trees) tail ∧
      items = done.reverse ++ new ∧ List.Forall₂ means trees new := by
  induction bound generalizing done cs with
  | nil => cases hscan
  | cons b bound ih =>
      rw [scanItems] at hscan
      obtain ⟨⟨more, behind⟩, hnext, hscan⟩ := bind_eq_ok_iff.mp hscan
      have hstep := of_nextItem hnext
      cases more with
      | false =>
          cases hscan
          obtain ⟨tail, hcs, rfl⟩ := hstep
          exact ⟨[], [], tail, rfl, .noItem hcs, (List.append_nil _).symm, .nil⟩
      | true =>
          obtain ⟨inside, comma, rfl⟩ := hstep
          obtain ⟨⟨a, between⟩, ha, hscan⟩ := bind_eq_ok_iff.mp hscan
          obtain ⟨tree, hbegins, hmeans⟩ := h _ a between ha
          obtain ⟨trees, new, tail, hrest, hitems, rfl, hnew⟩ := ih hscan
          refine ⟨tree :: trees, a :: new, tail, hrest, ?_, ?_, .cons hmeans hnew⟩
          · exact .item comma hbegins.of_skipSpace hitems
          · rw [List.reverse_cons, List.append_assoc, List.singleton_append]

theorem Sound.list {codec : Codec α} (h : codec.Sound means) :
    codec.list.Sound
      (fun tree items => ∃ trees, tree = .array trees ∧ List.Forall₂ means trees items) := by
  intro cs items rest hscan
  obtain ⟨⟨head, inside⟩, hhead, hscan⟩ := bind_eq_ok_iff.mp hscan
  simp only at hscan
  split at hscan
  · obtain ⟨⟨found, behind⟩, hitems, hscan⟩ := bind_eq_ok_iff.mp hscan
    obtain ⟨tail, hclose, hscan⟩ := bind_eq_ok_iff.mp hscan
    cases hscan
    obtain ⟨trees, new, tail, rfl, hbegins, rfl, hnew⟩ := of_scanItems h hitems
    rw [closeArray_bracket] at hclose
    cases hclose
    cases headed_of_scanHead hhead with
    | scalar tells _ => cases tells
    | array bracket => exact ⟨.array trees, .array bracket hbegins, trees, rfl, hnew⟩
  · cases hscan

end Codec

/-! ### Records -/

/-- A field of a record with what its values mean. -/
structure Reading (α : Type) where
  field : RecordField α
  means : Tree → field.β → Prop

namespace Reading

variable {α : Type}

def name (reading : Reading α) : String :=
  reading.field.name

end Reading

/-- The values of the entries with a name. -/
def valuesOf (name : String) (entries : List (List Mark × Tree)) : List Tree :=
  (entries.filter (fun entry => decide (text? entry.1 = some name))).map Prod.snd

/-- The values that are written for a field: those of the entries with its name in an object, and
the item at its position in an array. -/
def Tree.given (position : Nat) (name : String) : Tree → List Tree
  | .object entries => valuesOf name entries
  | .array trees => trees[position]?.toList
  | _ => []

/-- What a field holds for which values are written: the standard if there are none, what the value
means if there is one, and nothing at all if there are more. -/
def Given {β : Type} (means : Tree → β → Prop) (standard : β) (trees : List Tree) (b : β) : Prop :=
  match trees with
  | [] => b = standard
  | [tree] => means tree b
  | _ => False

theorem valuesOf_cons_of_eq {name : String} {key : List Mark} (h : text? key = some name)
    (tree : Tree) (entries : List (List Mark × Tree)) :
    valuesOf name ((key, tree) :: entries) = tree :: valuesOf name entries := by
  rw [valuesOf, List.filter_cons_of_pos (by simpa using h), List.map_cons]
  rfl

theorem valuesOf_cons_of_ne {name other : String} {key : List Mark} (h : text? key = some other)
    (hne : name ≠ other) (tree : Tree) (entries : List (List Mark × Tree)) :
    valuesOf name ((key, tree) :: entries) = valuesOf name entries := by
  rw [valuesOf, List.filter_cons_of_neg]
  · rfl
  · rw [h, decide_eq_true_eq, Option.some.injEq]
    exact hne.symm

/-- The fields of a record have names of their own, are read as what they mean, and are set one
without another. -/
structure Readable {α : Type} (readings : List (Reading α)) : Prop where
  nodup : (readings.map Reading.name).Nodup
  sound : ∀ reading ∈ readings, reading.field.codec.Sound reading.means
  get_set : ∀ reading ∈ readings, ∀ b a, reading.field.get (reading.field.set b a) = b
  get_set_of_ne : ∀ reading ∈ readings, ∀ other ∈ readings, other.name ≠ reading.name →
    ∀ b a, other.field.get (reading.field.set b a) = other.field.get a

namespace Record

variable {α : Type} {readings : List (Reading α)}

theorem of_find? {field : RecordField α} {name : String}
    (h : (readings.map Reading.field).find? (fun field => field.name == name) = some field) :
    ∃ reading ∈ readings, reading.field = field ∧ reading.name = name := by
  obtain ⟨hfield, hname⟩ := known_of_find? h
  obtain ⟨reading, hreading, rfl⟩ := List.mem_map.mp hfield
  exact ⟨reading, hreading, rfl, hname⟩

theorem name_ne_of_find? {name : String}
    (h : (readings.map Reading.field).find? (fun field => field.name == name) = none) :
    ∀ reading ∈ readings, reading.name ≠ name := by
  intro reading hreading hname
  exact unknown_of_find? h (hname ▸ name_mem (List.mem_map_of_mem hreading))

/-- One field is read: what is written means it, and the record has it. -/
theorem of_scanField (readable : Readable readings) {reading : Reading α}
    (hreading : reading ∈ readings) {a a' : α} {cs rest : List Char}
    (h : reading.field.scan a cs = .ok (a', rest)) :
    ∃ tree, Begins cs (.value tree) rest ∧ reading.means tree (reading.field.get a') ∧
      ∀ other ∈ readings, other.name ≠ reading.name → other.field.get a' = other.field.get a := by
  obtain ⟨⟨b, tail⟩, hb, ⟨⟩⟩ := map_eq_ok_iff.mp h
  obtain ⟨tree, hbegins, hmeans⟩ := readable.sound reading hreading cs b _ hb
  refine ⟨tree, hbegins, ?_, fun other hother hne => ?_⟩
  · rw [readable.get_set reading hreading]
    exact hmeans
  · exact readable.get_set_of_ne reading hreading other hother hne b a

/-- What becomes of a field while entries are read, of which those of the names `seen` are read
already. -/
def Kept (reading : Reading α) (seen : List String) (a a' : α)
    (entries : List (List Mark × Tree)) : Prop :=
  if reading.name ∈ seen then
    valuesOf reading.name entries = [] ∧ reading.field.get a' = reading.field.get a
  else
    Given reading.means (reading.field.get a) (valuesOf reading.name entries)
      (reading.field.get a')

theorem Kept.cons_of_ne {reading : Reading α} {seen : List String} {a a' : α}
    {entries : List (List Mark × Tree)} (h : Kept reading seen a a' entries) {key : List Mark}
    {name : String} (hkey : text? key = some name) (hne : reading.name ≠ name) (tree : Tree) :
    Kept reading seen a a' ((key, tree) :: entries) := by
  unfold Kept at h ⊢
  rwa [valuesOf_cons_of_ne hkey hne]

/-- What becomes of a field once another one is set. -/
theorem Kept.of_cons_seen {reading : Reading α} {name : String} {seen : List String}
    {a a₁ a' : α} {entries : List (List Mark × Tree)}
    (h : Kept reading (name :: seen) a₁ a' entries) (hne : reading.name ≠ name)
    (hget : reading.field.get a₁ = reading.field.get a) : Kept reading seen a a' entries := by
  unfold Kept at h ⊢
  simpa only [List.mem_cons, hne, false_or, hget] using h

/-- **The entries of an object are read into the fields of their names**, each at most once. -/
theorem of_scanEntries (readable : Readable readings) {bound cs rest : List Char}
    {seen : List String} {first : Bool} {a a' : α}
    (h : scanEntries (readings.map Reading.field) bound seen first a cs = .ok (a', rest)) :
    ∃ entries, Begins cs (.members first entries) rest ∧
      ∀ reading ∈ readings, Kept reading seen a a' entries := by
  induction bound generalizing seen first a cs with
  | nil => cases h
  | cons b bound ih =>
      rw [scanEntries] at h
      obtain ⟨⟨name?, named⟩, hname, h⟩ := bind_eq_ok_iff.mp h
      have hstep := of_nextName hname
      cases name? with
      | none =>
          cases h
          refine ⟨[], .noMember hstep, fun reading _ => ?_⟩
          unfold Kept
          split
          · exact ⟨rfl, rfl⟩
          · rfl
      | some name =>
          obtain ⟨behind, key, comma, hkey, htext⟩ := hstep
          simp only at h
          split at h
          · next hfind =>
              -- no field has the name, and the value is passed over
              obtain ⟨inside, hcolon, h⟩ := bind_eq_ok_iff.mp h
              obtain ⟨between, hskip, h⟩ := bind_eq_ok_iff.mp h
              obtain ⟨tree, hvalue⟩ := of_skipValue hskip
              obtain ⟨entries, hentries, hkept⟩ := ih h
              refine ⟨(key, tree) :: entries,
                .member comma hkey (of_scanColon hcolon) hvalue hentries, fun reading hreading => ?_⟩
              exact (hkept reading hreading).cons_of_ne htext
                (name_ne_of_find? hfind reading hreading) tree
          · next field hfind =>
              split at h
              · cases h
              · next hseen =>
                  rw [List.contains_iff_mem] at hseen
                  obtain ⟨reading, hreading, rfl, rfl⟩ := of_find? hfind
                  obtain ⟨inside, hcolon, h⟩ := bind_eq_ok_iff.mp h
                  obtain ⟨⟨a₁, between⟩, hscan, h⟩ := bind_eq_ok_iff.mp h
                  obtain ⟨tree, hvalue, hmeans, hothers⟩ := of_scanField readable hreading hscan
                  obtain ⟨entries, hentries, hkept⟩ := ih h
                  refine ⟨(key, tree) :: entries,
                    .member comma hkey (of_scanColon hcolon) hvalue hentries,
                    fun other hother => ?_⟩
                  have hother' := hkept other hother
                  by_cases hsame : other.name = reading.name
                  · -- the field itself: its value is the first, and no other may follow
                    obtain rfl := List.inj_on_of_nodup_map readable.nodup hother hreading hsame
                    rw [Kept, if_pos List.mem_cons_self] at hother'
                    rw [Kept, if_neg hseen, valuesOf_cons_of_eq htext, hother'.1, hother'.2]
                    exact hmeans
                  · exact (hother'.of_cons_seen hsame (hothers other hother hsame)).cons_of_ne
                      htext hsame tree

/-- **The items of an array are read into the fields at their positions**, and there are no more of
them. -/
theorem of_scanItems (readable : Readable readings) {later : List (Reading α)}
    (hlater : ∀ reading ∈ later, reading ∈ readings) (hnodup : (later.map Reading.name).Nodup)
    {first : Bool} {a a' : α} {cs between rest : List Char}
    (h : scanItems (later.map Reading.field) first a cs = .ok (a', between))
    (hclose : closeArray between = .ok rest) :
    ∃ trees, Begins cs (.items first trees) rest ∧ trees.length ≤ later.length ∧
      (∀ (position : Nat) (reading : Reading α), later[position]? = some reading →
        Given reading.means (reading.field.get a) trees[position]?.toList
          (reading.field.get a')) ∧
      ∀ other ∈ readings, other.name ∉ later.map Reading.name →
        other.field.get a' = other.field.get a := by
  induction later generalizing first a cs with
  | nil =>
      cases h
      refine ⟨[], .noItem (of_closeArray hclose), Nat.le_refl _, ?_, fun _ _ _ => rfl⟩
      intro position reading hreading
      cases hreading
  | cons reading later ih =>
      rw [List.map_cons, scanItems] at h
      obtain ⟨⟨more, behind⟩, hnext, h⟩ := bind_eq_ok_iff.mp h
      have hstep := of_nextItem hnext
      rw [List.map_cons, List.nodup_cons] at hnodup
      have hreading := hlater reading List.mem_cons_self
      cases more with
      | false =>
          cases h
          obtain ⟨tail, hcs, rfl⟩ := hstep
          rw [closeArray_bracket] at hclose
          cases hclose
          exact ⟨[], .noItem hcs, Nat.zero_le _, fun _ _ _ => rfl, fun _ _ _ => rfl⟩
      | true =>
          obtain ⟨inside, comma, rfl⟩ := hstep
          simp only [if_true] at h
          obtain ⟨⟨a₁, between'⟩, hscan, h⟩ := bind_eq_ok_iff.mp h
          obtain ⟨tree, hvalue, hmeans, hothers⟩ := of_scanField readable hreading hscan
          obtain ⟨trees, hitems, hlength, hgiven, hrest⟩ :=
            ih (fun other hother => hlater other (List.mem_cons_of_mem _ hother)) hnodup.2 h
          refine ⟨tree :: trees, .item comma hvalue.of_skipSpace hitems,
            Nat.succ_le_succ hlength, fun position other hposition => ?_, fun other hother hnot => ?_⟩
          · cases position with
            | zero =>
                cases hposition
                show reading.means tree (reading.field.get a')
                rw [hrest reading hreading hnodup.1]
                exact hmeans
            | succ position =>
                have hother : other ∈ later := List.mem_of_getElem? hposition
                have hne : other.name ≠ reading.name := by
                  intro hsame
                  exact hnodup.1 (hsame ▸ List.mem_map_of_mem hother)
                have h := hgiven position other hposition
                rw [hothers other (hlater other (List.mem_cons_of_mem _ hother)) hne] at h
                exact h
          · rw [List.map_cons, List.mem_cons, not_or] at hnot
            rw [hrest other hother hnot.2, hothers other hother hnot.1]

/-- A record that is written as a value. -/
structure IsWritten (readings : List (Reading α)) (standard : α) (tree : Tree) (a : α) : Prop where
  form : (∃ entries, tree = .object entries) ∨
    ∃ trees, tree = .array trees ∧ trees.length ≤ readings.length
  given : ∀ (position : Nat) (reading : Reading α), readings[position]? = some reading →
    Given reading.means (reading.field.get standard) (tree.given position reading.name)
      (reading.field.get a)

end Record

/-- **A record is read from an object or an array**, field for field. -/
theorem Codec.Sound.record {α : Type} {readings : List (Reading α)} (readable : Readable readings)
    (kind : String) (standard : α) :
    (Codec.record kind standard (readings.map Reading.field)).Sound
      (Record.IsWritten readings standard) := by
  intro cs a rest hscan
  obtain ⟨⟨head, inside⟩, hhead, hscan⟩ := bind_eq_ok_iff.mp hscan
  have hheaded := headed_of_scanHead hhead
  simp only at hscan
  split at hscan
  · obtain ⟨⟨a', between⟩, hitems, hscan⟩ := bind_eq_ok_iff.mp hscan
    obtain ⟨tail, hclose, hscan⟩ := bind_eq_ok_iff.mp hscan
    cases hscan
    obtain ⟨trees, hbegins, hlength, hgiven, -⟩ :=
      Record.of_scanItems readable (fun _ h => h) readable.nodup hitems hclose
    cases hheaded with
    | scalar tells _ => cases tells
    | array bracket =>
        exact ⟨.array trees, .array bracket hbegins, Or.inr ⟨trees, rfl, hlength⟩, hgiven⟩
  · obtain ⟨entries, hbegins, hkept⟩ := Record.of_scanEntries readable hscan
    cases hheaded with
    | scalar tells _ => cases tells
    | object bracket =>
        refine ⟨.object entries, .object bracket hbegins, Or.inl ⟨entries, rfl⟩, ?_⟩
        intro position reading hposition
        have h := hkept reading (List.mem_of_getElem? hposition)
        rwa [Record.Kept, if_neg List.not_mem_nil] at h
  · cases hscan

end Posting.Json
