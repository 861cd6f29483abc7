import Posting.Json.Codec
import Posting.Proofs.JsonScalars

/-! # Codecs that read back what they write

`Codec.ReadsBack codec a` says that scanning what the codec writes for `a` gives `a` back and leaves
what follows, with space in front and with any spacing inside that is nothing but space.  It is kept
by the combinators of codecs:

* `ReadsBack.refine`, `ReadsBack.nullable` and `ReadsBack.choice` for single values;
* `ReadsBack.list` for arrays of any length.

`ReadsBack.read_pretty` is the consequence for a whole text.  `refine_read_eq_ok_iff`,
`natural_read_eq_ok_iff` and their kin say which values and texts a codec accepts. -/

namespace Posting.Json

/-! ### What follows a value -/

/-- A spacing of nothing but space. -/
structure Spacing.Blank (spacing : Spacing) : Prop where
  beforeItem : ∀ depth, AllSpace (spacing.beforeItem depth)
  afterColon : AllSpace spacing.afterColon

theorem Spacing.indented_blank : Spacing.indented.Blank := by
  refine ⟨fun depth c hc => ?_, fun c hc => ?_⟩
  · rcases List.mem_cons.mp hc with rfl | hc
    · rfl
    · rw [List.eq_of_mem_replicate hc]
      rfl
  · rw [List.eq_of_mem_singleton hc]
    rfl

theorem endsNumber_of_isSpace {c : Char} (h : isSpace c = true) (rest : List Char) :
    EndsNumber (c :: rest) := by
  rintro d ⟨⟩
  simp only [isSpace, Bool.or_eq_true, beq_iff_eq] at h
  rcases h with ((rfl | rfl) | rfl) | rfl <;> decide

theorem EndsNumber.space_append {space rest : List Char} (hspace : AllSpace space)
    (hrest : EndsNumber rest) : EndsNumber (space ++ rest) := by
  cases space with
  | nil => exact hrest
  | cons c tail => exact endsNumber_of_isSpace (hspace c List.mem_cons_self) _

theorem endsNumber_cons {c : Char} (h : c.isDigit = false ∧ c ≠ '.' ∧ c ≠ 'e' ∧ c ≠ 'E')
    (rest : List Char) : EndsNumber (c :: rest) := by
  rintro d ⟨⟩
  exact h

theorem endsNumber_nil : EndsNumber [] := by
  rintro c ⟨⟩

/-! ### Reading back -/

/-- A text that starts as a value may start: with no space and no bracket that closes an array. -/
def StartsValue (cs : List Char) : Prop :=
  ∃ c tail, cs = c :: tail ∧ isSpace c = false ∧ c ≠ ']'

theorem StartsValue.append {cs : List Char} (h : StartsValue cs) (rest : List Char) :
    StartsValue (cs ++ rest) := by
  obtain ⟨c, tail, rfl, hspace, hbracket⟩ := h
  exact ⟨c, tail ++ rest, rfl, hspace, hbracket⟩

theorem startsValue_stringText (s : String) : StartsValue (stringText s) :=
  ⟨'"', _, rfl, by decide, by decide⟩

theorem startsValue_integer (n : Int) : StartsValue (Text.integer n) := by
  unfold Text.integer
  split
  · exact ⟨'-', _, rfl, by decide, by decide⟩
  · obtain ⟨c, tail, hc, heq⟩ :=
      (Text.allDigits_digits n.natAbs).exists_cons (Text.digits_ne_nil _)
    exact ⟨c, tail, heq, isSpace_of_isDigit hc, Text.ne_of_isDigit hc rfl⟩

/-- The codec reads a value back from what it writes for it, and leaves what follows. -/
structure Codec.ReadsBack {α : Type} (codec : Codec α) (a : α) : Prop where
  starts : ∀ spacing depth, StartsValue ((codec.encode a).write spacing depth)
  scan : ∀ spacing : Spacing, spacing.Blank → ∀ depth space rest, AllSpace space →
    EndsNumber rest →
      codec.scan (space ++ ((codec.encode a).write spacing depth ++ rest)) = .ok (a, rest)

namespace Codec

variable {α β : Type}

/-! ### Single values -/

theorem ReadsBack.ofHead {encode : α → Value} {accept : Head → Except ValueFault α} {a : α}
    (head : Head) (haccept : accept head = .ok a)
    (hstarts : ∀ spacing depth, StartsValue ((encode a).write spacing depth))
    (hscan : ∀ spacing depth rest, EndsNumber rest →
      scanHead ((encode a).write spacing depth ++ rest) = .ok (head, rest)) :
    (Codec.ofHead encode accept).ReadsBack a := by
  refine ⟨hstarts, fun spacing _ depth space rest hspace hrest => ?_⟩
  show (scanHead _ >>= _) = _
  rw [show (Codec.ofHead encode accept).encode a = encode a from rfl, scanHead_append hspace,
    hscan spacing depth rest hrest, ok_bind]
  simp only [haccept]
  rfl

theorem ReadsBack.text (kind : String) (s : String) : (Codec.text kind).ReadsBack s :=
  .ofHead (.string s) rfl (fun _ _ => startsValue_stringText s)
    (fun _ _ rest _ => scanHead_stringText s rest)

theorem ReadsBack.string (s : String) : Codec.string.ReadsBack s :=
  .text "a string" s

theorem ReadsBack.refine {codec : Codec β} {encode : α → β} {accept : β → Except String α} {a : α}
    (h : codec.ReadsBack (encode a)) (haccept : accept (encode a) = .ok a) :
    (codec.refine encode accept).ReadsBack a := by
  refine ⟨h.starts, fun spacing hspacing depth space rest hspace hrest => ?_⟩
  show (codec.scan _ >>= _) = _
  rw [show (codec.refine encode accept).encode a = codec.encode (encode a) from rfl,
    h.scan spacing hspacing depth space rest hspace hrest, ok_bind]
  simp only [haccept]
  rfl

theorem nullable_scan_append (codec : Codec α) {space : List Char} (h : AllSpace space)
    (cs : List Char) : codec.nullable.scan (space ++ cs) = codec.nullable.scan cs := by
  unfold nullable
  simp only [skipSpace_append h]

theorem nullable_scan_cons (codec : Codec α) {c : Char} (hspace : isSpace c = false)
    (hn : c ≠ 'n') (rest : List Char) :
    codec.nullable.scan (c :: rest) = (codec.scan (c :: rest)).map (fun p => (some p.1, p.2)) := by
  unfold nullable
  simp only [skipSpace_cons hspace]
  split
  · rename_i h
    rw [List.cons.injEq] at h
    exact absurd h.1 hn
  · rfl

theorem ReadsBack.nullable {codec : Codec α} {a : Option α} (h : ∀ b ∈ a, codec.ReadsBack b)
    (hstarts : ∀ b ∈ a, ∀ spacing depth,
      ((codec.encode b).write spacing depth).head? ≠ some 'n') :
    codec.nullable.ReadsBack a := by
  cases a with
  | none =>
      refine ⟨fun _ _ => ⟨'n', _, rfl, by decide, by decide⟩, fun _ _ _ space rest hspace _ => ?_⟩
      rw [nullable_scan_append codec hspace]
      rfl
  | some b =>
      have hb := h b rfl
      refine ⟨hb.starts, fun spacing hspacing depth space rest hspace hrest => ?_⟩
      obtain ⟨c, tail, heq, hc, -⟩ := hb.starts spacing depth
      have hn : c ≠ 'n' := by
        rintro rfl
        exact hstarts b rfl spacing depth (by rw [heq]; rfl)
      have hscan := hb.scan spacing hspacing depth [] rest (by rintro d ⟨⟩) hrest
      rw [List.nil_append, heq, List.cons_append] at hscan
      show codec.nullable.scan (space ++ ((codec.encode b).write spacing depth ++ rest)) = _
      rw [nullable_scan_append codec hspace, heq, List.cons_append, nullable_scan_cons codec hc hn,
        hscan, ok_map]

theorem choice_scan_append (name : α → String) (members : List (String × α)) {space : List Char}
    (h : AllSpace space) (cs : List Char) :
    (Codec.choice name members).scan (space ++ cs) = (Codec.choice name members).scan cs := by
  unfold choice
  simp only [skipSpace_append h]

theorem choice_scan_stringText (name : α → String) (members : List (String × α)) (s : String)
    (rest : List Char) :
    (Codec.choice name members).scan (stringText s ++ rest) =
      (liftValue (pick members s)).map (fun a => (a, rest)) := by
  have hquote : isSpace '"' = false := by decide
  unfold choice
  simp only [stringText_append, skipSpace_cons hquote, if_true]
  rw [scanString_stringText, ok_bind]
  cases liftValue (pick members s) <;> rfl

theorem ReadsBack.choice {name : α → String} {members : List (String × α)} {a : α}
    (h : members.lookup (name a) = some a) : (Codec.choice name members).ReadsBack a := by
  refine ⟨fun _ _ => startsValue_stringText _, fun _ _ _ space rest hspace _ => ?_⟩
  show (Codec.choice name members).scan (space ++ (stringText (name a) ++ rest)) = _
  rw [choice_scan_append name members hspace, choice_scan_stringText]
  simp only [pick, h]
  rfl

end Codec

/-! ### Arrays -/

theorem nextItem_bracket (first : Bool) {space : List Char} (hspace : AllSpace space)
    (rest : List Char) : nextItem first (space ++ ']' :: rest) = .ok (false, ']' :: rest) := by
  unfold nextItem
  rw [skipSpace_append hspace, skipSpace_cons (by decide)]
  rfl

theorem nextItem_first {space cs : List Char} (hspace : AllSpace space) (hcs : StartsValue cs) :
    nextItem true (space ++ cs) = .ok (true, cs) := by
  obtain ⟨c, tail, rfl, hc, hbracket⟩ := hcs
  unfold nextItem
  rw [skipSpace_append hspace, skipSpace_cons hc]
  split
  · rename_i h
    cases h
  · rename_i h
    rw [List.cons.injEq] at h
    exact absurd h.1 hbracket
  · rename_i h
    rw [List.cons.injEq] at h
    obtain ⟨rfl, rfl⟩ := h
    rfl

theorem nextItem_comma {space cs : List Char} (hspace : AllSpace space) (hcs : StartsValue cs) :
    nextItem false (',' :: (space ++ cs)) = .ok (true, cs) := by
  obtain ⟨c, tail, rfl, hc, hbracket⟩ := hcs
  unfold nextItem
  rw [skipSpace_cons (by decide)]
  split
  · rename_i h
    cases h
  · rename_i h
    rw [List.cons.injEq] at h
    exact absurd h.1 (by decide)
  · rename_i h
    rw [List.cons.injEq] at h
    obtain ⟨rfl, rfl⟩ := h
    rw [if_neg (by decide), if_pos rfl, skipSpace_append hspace, skipSpace_cons hc]
    split
    · rename_i h
      cases h
    · rename_i h
      rw [List.cons.injEq] at h
      exact absurd h.1 hbracket
    · rfl

theorem closeArray_bracket (rest : List Char) : closeArray (']' :: rest) = .ok rest := by
  unfold closeArray
  rw [skipSpace_cons (by decide)]
  rfl

theorem writeItems_cons_append (spacing : Spacing) (depth : Nat) (item : Value)
    (items : List Value) (rest : List Char) :
    writeItems spacing depth (item :: items) ++ rest =
      ',' :: (spacing.beforeItem depth ++
        (item.write spacing depth ++ (writeItems spacing depth items ++ rest))) := by
  simp [writeItems]

theorem write_array_append (spacing : Spacing) (depth : Nat) (item : Value) (items : List Value)
    (rest : List Char) :
    (Value.array (item :: items)).write spacing depth ++ rest =
      '[' :: (spacing.beforeItem (depth + 1) ++
        (item.write spacing (depth + 1) ++ (writeItems spacing (depth + 1) items ++
          (spacing.beforeItem depth ++ ']' :: rest)))) := by
  simp [Value.write]

theorem length_le_writeItems (spacing : Spacing) (depth : Nat) (items : List Value) :
    items.length ≤ (writeItems spacing depth items).length := by
  induction items with
  | nil => exact Nat.zero_le _
  | cons item items ih =>
      simp only [writeItems, List.length_append, List.length_cons]
      omega

theorem endsNumber_writeItems (spacing : Spacing) (depth : Nat) (items : List Value)
    {rest : List Char} (hrest : EndsNumber rest) :
    EndsNumber (writeItems spacing depth items ++ rest) := by
  cases items with
  | nil => exact hrest
  | cons item items =>
      rw [writeItems_cons_append]
      exact endsNumber_cons (by decide) _

namespace Codec

variable {α : Type}

theorem scanItems_writeItems {codec : Codec α} {spacing : Spacing} (hspacing : spacing.Blank)
    (depth : Nat) {space : List Char} (hspace : AllSpace space) (rest : List Char)
    {items : List α} (h : ∀ a ∈ items, codec.ReadsBack a) (bound : List Char) {done : List α}
    (hdone : done ≠ []) (hbound : items.length < bound.length) :
    codec.scanItems bound done
        (writeItems spacing depth (items.map codec.encode) ++ (space ++ ']' :: rest)) =
      .ok (done.reverse ++ items, ']' :: rest) := by
  induction items generalizing bound done with
  | nil =>
      obtain ⟨b, bound, rfl⟩ := List.exists_cons_of_length_pos hbound
      rw [List.map_nil, writeItems, List.nil_append, scanItems, nextItem_bracket _ hspace, ok_bind,
        List.append_nil]
      rfl
  | cons a items ih =>
      obtain ⟨b, bound, rfl⟩ := List.exists_cons_of_length_pos (Nat.zero_lt_of_lt hbound)
      simp only [List.length_cons, Nat.add_lt_add_iff_right] at hbound
      have ha := h a List.mem_cons_self
      have hempty : done.isEmpty = false := by
        rw [List.isEmpty_eq_false_iff]
        exact hdone
      have hend : EndsNumber (']' :: rest) := endsNumber_cons (by decide) rest
      have hitem := ha.scan spacing hspacing depth [] _ (by rintro c ⟨⟩)
        (endsNumber_writeItems spacing depth (items.map codec.encode) (hend.space_append hspace))
      rw [List.nil_append] at hitem
      rw [List.map_cons, writeItems_cons_append, scanItems, hempty,
        nextItem_comma (hspacing.beforeItem depth) ((ha.starts spacing depth).append _), ok_bind]
      simp only [if_true]
      rw [hitem, ok_bind]
      simp only
      rw [ih (fun x hx => h x (List.mem_cons_of_mem _ hx)) bound (List.cons_ne_nil a done) hbound,
        List.reverse_cons, List.append_assoc, List.singleton_append]

theorem scanItems_array {codec : Codec α} {spacing : Spacing} (hspacing : spacing.Blank)
    (depth : Nat) {before space : List Char} (hbefore : AllSpace before) (hspace : AllSpace space)
    (rest : List Char) {a : α} {items : List α} (h : ∀ b ∈ a :: items, codec.ReadsBack b)
    (bound : List Char) (hbound : items.length + 1 < bound.length) :
    codec.scanItems bound []
        (before ++ ((codec.encode a).write spacing depth ++
          (writeItems spacing depth (items.map codec.encode) ++ (space ++ ']' :: rest)))) =
      .ok (a :: items, ']' :: rest) := by
  obtain ⟨b, bound, rfl⟩ := List.exists_cons_of_length_pos (Nat.zero_lt_of_lt hbound)
  have ha := h a List.mem_cons_self
  have hend : EndsNumber (']' :: rest) := endsNumber_cons (by decide) rest
  have hitem := ha.scan spacing hspacing depth [] _ (by rintro c ⟨⟩)
    (endsNumber_writeItems spacing depth (items.map codec.encode) (hend.space_append hspace))
  rw [List.nil_append] at hitem
  rw [scanItems, List.isEmpty_nil, nextItem_first hbefore ((ha.starts spacing depth).append _),
    ok_bind]
  simp only [if_true]
  rw [hitem, ok_bind]
  exact scanItems_writeItems hspacing depth hspace rest
    (fun x hx => h x (List.mem_cons_of_mem a hx)) bound (List.cons_ne_nil a [])
    (Nat.lt_of_succ_lt_succ hbound)

theorem ReadsBack.list {codec : Codec α} {items : List α} (h : ∀ a ∈ items, codec.ReadsBack a) :
    codec.list.ReadsBack items := by
  cases items with
  | nil =>
      refine ⟨fun _ _ => ⟨'[', _, rfl, by decide, by decide⟩, fun _ _ _ space rest hspace _ => ?_⟩
      show (scanHead (space ++ '[' :: ']' :: rest) >>= _) = _
      rw [scanHead_append hspace]
      rfl
  | cons a items =>
      refine ⟨fun _ _ => ⟨'[', _, rfl, by decide, by decide⟩,
        fun spacing hspacing depth space rest hspace _ => ?_⟩
      show (scanHead (space ++
        ((Value.array (codec.encode a :: items.map codec.encode)).write spacing depth ++ rest)) >>=
          _) = _
      rw [scanHead_append hspace, write_array_append]
      show (codec.scanItems _ [] _ >>= _) = _
      rw [scanItems_array hspacing (depth + 1) (hspacing.beforeItem (depth + 1))
        (hspacing.beforeItem depth) rest h, ok_bind]
      · simp only
        rw [closeArray_bracket, ok_bind]
      · -- each item takes at least one character, so the text bounds the number of items
        have hitems := length_le_writeItems spacing (depth + 1) (items.map codec.encode)
        obtain ⟨c, tail, heq, -⟩ := (h a List.mem_cons_self).starts spacing (depth + 1)
        rw [heq]
        simp only [List.length_append, List.length_cons, List.length_map] at hitems ⊢
        omega

end Codec

/-! ### Texts -/

/-- A text is accepted if nothing but space follows what is scanned. -/
theorem readWith_eq_ok_iff {α : Type} {scan : Scanner α} {text : String} {a : α} :
    readWith scan text = .ok a ↔ ∃ rest, scan text.toList = .ok (a, rest) ∧ skipSpace rest = [] := by
  unfold readWith
  simp only [bind_eq_ok_iff]
  constructor
  · rintro ⟨⟨b, rest⟩, hscan, h⟩
    split at h
    · next hrest =>
        cases h
        exact ⟨rest, hscan, List.isEmpty_iff.mp hrest⟩
    · cases h
  · rintro ⟨rest, hscan, hrest⟩
    refine ⟨(a, rest), hscan, ?_⟩
    simp only
    rw [if_pos (List.isEmpty_iff.mpr hrest)]

section refine

variable {α β : Type} {codec : Codec β} {encode : α → β} {accept : β → Except String α} {a : α}

theorem Codec.refine_decode_eq_ok_iff {value : Value} :
    (codec.refine encode accept).decode value = .ok a ↔
      ∃ b, codec.decode value = .ok b ∧ accept b = .ok a := by
  unfold refine
  simp only [bind_eq_ok_iff, mapError_eq_ok_iff]

theorem Codec.refine_scan_eq_ok_iff {cs rest : List Char} :
    (codec.refine encode accept).scan cs = .ok (a, rest) ↔
      ∃ b, codec.scan cs = .ok (b, rest) ∧ accept b = .ok a := by
  unfold refine
  simp only [bind_eq_ok_iff, liftValue, mapError_eq_ok_iff]
  constructor
  · rintro ⟨⟨b, rest'⟩, hb, a', ha, h⟩
    cases h
    exact ⟨b, hb, ha⟩
  · rintro ⟨b, hb, ha⟩
    exact ⟨(b, rest), hb, a, ha, rfl⟩

theorem Codec.refine_read_eq_ok_iff {text : String} :
    (codec.refine encode accept).read text = .ok a ↔
      ∃ b, codec.read text = .ok b ∧ accept b = .ok a := by
  unfold Codec.read
  simp only [readWith_eq_ok_iff, refine_scan_eq_ok_iff]
  constructor
  · rintro ⟨rest, ⟨b, hb, ha⟩, hrest⟩
    exact ⟨b, ⟨rest, hb, hrest⟩, ha⟩
  · rintro ⟨b, ⟨rest, hb, hrest⟩, ha⟩
    exact ⟨rest, ⟨b, hb, ha⟩, hrest⟩

end refine

/-! ### Natural numbers -/

theorem Codec.ofHead_scan_eq_ok_iff {α : Type} {encode : α → Value}
    {accept : Head → Except ValueFault α} {cs rest : List Char} {a : α} :
    (Codec.ofHead encode accept).scan cs = .ok (a, rest) ↔
      ∃ head, scanHead cs = .ok (head, rest) ∧ accept head = .ok a := by
  unfold Codec.ofHead
  simp only [bind_eq_ok_iff, liftValue, mapError_eq_ok_iff]
  constructor
  · rintro ⟨⟨head, tail⟩, hhead, b, haccept, h⟩
    cases h
    exact ⟨head, hhead, haccept⟩
  · rintro ⟨head, hhead, haccept⟩
    exact ⟨(head, rest), hhead, a, haccept, rfl⟩

/-- The natural number of so many bits that the beginning of a value tells. -/
def acceptNatural (bits : Nat) : Head → Except ValueFault Nat
  | .number (.integer n) =>
    if 0 ≤ n ∧ n.toNat < Nat.pow 2 bits then .ok n.toNat else .error (.outOfRange n s!"u{bits}")
  | head => .error (.wrongKind head s!"u{bits}")

theorem Codec.natural_eq (bits : Nat) :
    Codec.natural bits = Codec.ofHead (fun n : Nat => .int n) (acceptNatural bits) :=
  rfl

theorem acceptNatural_eq_ok_iff {bits n : Nat} {head : Head} :
    acceptNatural bits head = .ok n ↔ head = .number (.integer n) ∧ n < 2 ^ bits := by
  unfold acceptNatural
  split
  · next m =>
      rw [Head.number.injEq, Numeral.integer.injEq]
      have hpow : Nat.pow 2 bits = 2 ^ bits := rfl
      split
      · rw [Except.ok.injEq]
        omega
      · refine ⟨nofun, fun h => ?_⟩
        omega
  · next hother =>
      refine ⟨nofun, fun h => ?_⟩
      exact absurd h.1 (hother _)

theorem Codec.natural_decode_eq_ok_iff {bits n : Nat} {value : Value} :
    (Codec.natural bits).decode value = .ok n ↔ value = .int n ∧ n < 2 ^ bits := by
  have hhead : value.head = .number (.integer n) ↔ value = .int n := by
    cases value <;> simp [Value.head, Value.int]
  rw [natural_eq, ← hhead]
  exact acceptNatural_eq_ok_iff

theorem Codec.ReadsBack.natural {bits n : Nat} (hbits : bits ≤ 63) (h : n < 2 ^ bits) :
    (Codec.natural bits).ReadsBack n := by
  have hpow : 2 ^ bits ≤ 2 ^ 63 := Nat.pow_le_pow_right (by decide) hbits
  have hlow : -0x8000000000000000 ≤ (n : Int) := by omega
  have hhigh : (n : Int) < 0x8000000000000000 := by omega
  rw [natural_eq]
  exact .ofHead (.number (.integer n)) (acceptNatural_eq_ok_iff.mpr ⟨rfl, h⟩)
    (fun _ _ => startsValue_integer n) (fun _ _ _ hrest => scanHead_integer hlow hhigh hrest)

theorem scanValue_number {cs rest : List Char} {n : Numeral} :
    scanValue cs = .ok (.number n, rest) ↔ scanHead cs = .ok (.number n, rest) := by
  rw [scanValue, scanValueWithin, bind_eq_ok_iff]
  constructor
  · rintro ⟨⟨head, tail⟩, hhead, h⟩
    cases head with
    | number m =>
        cases h
        exact hhead
    | null => cases h
    | bool b => cases h
    | string s => cases h
    | array =>
        obtain ⟨⟨items, behind⟩, -, h⟩ := bind_eq_ok_iff.mp h
        cases h
    | object =>
        obtain ⟨⟨entries, behind⟩, -, h⟩ := bind_eq_ok_iff.mp h
        cases h
  · intro hhead
    exact ⟨_, hhead, rfl⟩

theorem Codec.natural_read_eq_ok_iff {bits n : Nat} {text : String} :
    (Codec.natural bits).read text = .ok n ↔ Value.read text = .ok (.int n) ∧ n < 2 ^ bits := by
  rw [Codec.read, Value.read, readWith_eq_ok_iff, readWith_eq_ok_iff, natural_eq]
  simp only [ofHead_scan_eq_ok_iff, acceptNatural_eq_ok_iff, Value.int, scanValue_number]
  constructor
  · rintro ⟨rest, ⟨head, hhead, rfl, hlt⟩, hrest⟩
    exact ⟨⟨rest, hhead, hrest⟩, hlt⟩
  · rintro ⟨⟨rest, hhead, hrest⟩, hlt⟩
    exact ⟨rest, ⟨_, hhead, rfl, hlt⟩, hrest⟩

/-- **A value that reads back is what its text denotes.** -/
theorem Codec.ReadsBack.read_pretty {α : Type} {codec : Codec α} {a : α}
    (h : codec.ReadsBack a) : codec.read (codec.encode a).pretty = .ok a := by
  have hscan := h.scan .indented Spacing.indented_blank 0 [] [] (by rintro c ⟨⟩) endsNumber_nil
  rw [List.nil_append, List.append_nil] at hscan
  unfold Codec.read readWith Value.pretty
  rw [String.toList_ofList, hscan, ok_bind]
  rfl

end Posting.Json
