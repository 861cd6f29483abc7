import Mathlib.Data.List.Forall2
import Posting.Profile.Codec
import Posting.Proofs.RecordReading
import Posting.Proofs.TextPieces

/-! # Names of destinations

A text is stripped of the blanks around it and of the case of its letters before it is looked up
among the names, and what is found is said by a grammar.

* `trim_padded` and `exists_eq_padded`: stripping takes away blanks, and all of those at the ends.
* `map_toLower_eq_iff_caseVariant`: texts are the same without the case of their letters if they
  differ in the case of ASCII letters only.  That case plays no part in stripping (`trim_map_toLower`).
* `Destination.parse?_eq_some_iff` is the grammar of names (`Destination.IsNamedBy`).
* `Destination.codec_decode_eq_ok_iff` and `Destination.codec_read_isName`: the JSON form knows the
  long names only, as they are.

`Destination.names_read` puts these together. -/

namespace Posting

namespace Text

/-! ### Blanks around a text -/

/-- A text of blanks. -/
def AllBlank (s : String) : Prop :=
  ∀ c ∈ s.toList, isBlank c = true

instance (s : String) : Decidable (AllBlank s) :=
  decidable_of_iff (s.toList.all isBlank = true) List.all_eq_true

theorem dropTrailingBlanks_append {blanks : List Char} (h : Blanks blanks) (cs : List Char) :
    dropTrailingBlanks (cs ++ blanks) = dropTrailingBlanks cs := by
  unfold dropTrailingBlanks
  rw [List.reverse_append, List.dropWhile_append_of_pos]
  intro c hc
  exact h c (List.mem_reverse.mp hc)

/-- **Blanks around a text are stripped**, whatever the text is. -/
theorem trim_padded {before after : String} (hbefore : AllBlank before) (hafter : AllBlank after)
    (s : String) : trim (before ++ s ++ after) = trim s := by
  unfold trim
  rw [String.toList_append, String.toList_append, List.append_assoc, skipBlanks_append hbefore]
  congr 1
  unfold skipBlanks
  rw [List.dropWhile_append]
  split
  · next hempty =>
      -- nothing but blanks is left, before the text ends and behind it
      have hnil : after.toList.dropWhile isBlank = [] := List.dropWhile_eq_nil_iff.mpr hafter
      rw [List.isEmpty_iff.mp hempty, hnil]
  · exact dropTrailingBlanks_append hafter _

theorem exists_eq_padded (s : String) :
    ∃ before after, AllBlank before ∧ AllBlank after ∧ s = before ++ trim s ++ after := by
  have hback := List.takeWhile_append_dropWhile (p := isBlank) (l := (skipBlanks s.toList).reverse)
  refine ⟨String.ofList (s.toList.takeWhile isBlank),
    String.ofList ((skipBlanks s.toList).reverse.takeWhile isBlank).reverse, ?_, ?_, ?_⟩
  · intro c hc
    rw [String.toList_ofList] at hc
    exact List.mem_takeWhile_imp hc
  · intro c hc
    rw [String.toList_ofList, List.mem_reverse] at hc
    exact List.mem_takeWhile_imp hc
  · rw [← String.toList_inj, String.toList_append, String.toList_append]
    unfold trim
    rw [String.toList_ofList, String.toList_ofList, String.toList_ofList, List.append_assoc]
    unfold dropTrailingBlanks
    rw [← List.reverse_append, hback, List.reverse_reverse]
    exact (List.takeWhile_append_dropWhile (p := isBlank) (l := s.toList)).symm

/-! ### The case of letters -/

/-- Characters that are the same but for the case of an ASCII letter. -/
def SameLetter (c d : Char) : Prop :=
  c = d ∨ c.isAlpha = true ∧ d.isAlpha = true ∧
    (c.toNat + 32 = d.toNat ∨ d.toNat + 32 = c.toNat)

/-- Texts that differ in the case of ASCII letters only. -/
def CaseVariant (s t : String) : Prop :=
  List.Forall₂ SameLetter s.toList t.toList

theorem isAlpha_iff (c : Char) : c.isAlpha = true ↔
    (65 ≤ c.toNat ∧ c.toNat ≤ 90) ∨ (97 ≤ c.toNat ∧ c.toNat ≤ 122) := by
  have hcapital : c.isUpper = true ↔ 65 ≤ c.toNat ∧ c.toNat ≤ 90 :=
    decide_eq_true_iff.trans (and_congr UInt32.le_iff_toNat_le UInt32.le_iff_toNat_le)
  have hsmall : c.isLower = true ↔ 97 ≤ c.toNat ∧ c.toNat ≤ 122 :=
    Bool.and_eq_true_iff.trans (and_congr (decide_eq_true_iff.trans UInt32.le_iff_toNat_le)
      (decide_eq_true_iff.trans UInt32.le_iff_toNat_le))
  exact Bool.or_eq_true_iff.trans (or_congr hcapital hsmall)

theorem toNat_toLower (c : Char) :
    c.toLower.toNat = if 65 ≤ c.toNat ∧ c.toNat ≤ 90 then c.toNat + 32 else c.toNat := by
  have hcapital : c.val ≥ 'A'.val ∧ c.val ≤ 'Z'.val ↔ 65 ≤ c.toNat ∧ c.toNat ≤ 90 := by
    simp only [ge_iff_le, UInt32.le_iff_toNat_le]
    rfl
  unfold Char.toLower
  by_cases h : c.val ≥ 'A'.val ∧ c.val ≤ 'Z'.val
  · have hle := (hcapital.mp h).2
    rw [dif_pos h, if_pos (hcapital.mp h)]
    show (c.val + 32).toNat = c.toNat + 32
    rw [UInt32.toNat_add]
    show (c.toNat + 32) % 2 ^ 32 = c.toNat + 32
    omega
  · rw [dif_neg h, if_neg (mt hcapital.mpr h)]

theorem toLower_eq_iff (c d : Char) : c.toLower = d.toLower ↔ SameLetter c d := by
  rw [← Char.toNat_inj, toNat_toLower, toNat_toLower, SameLetter, isAlpha_iff, isAlpha_iff,
    ← Char.toNat_inj]
  split <;> split <;> omega

/-- **Texts are the same in small letters** if they differ in the case of ASCII letters only. -/
theorem map_toLower_eq_iff_caseVariant (s t : String) :
    s.map Char.toLower = t.map Char.toLower ↔ CaseVariant s t := by
  rw [← String.toList_inj, String.toList_map, String.toList_map, ← List.forall₂_eq_eq_eq,
    List.forall₂_map_left_iff, List.forall₂_map_right_iff]
  simp only [toLower_eq_iff]
  rfl

/-- No letter is blank, so that its case plays no part. -/
theorem isBlank_toLower (c : Char) : isBlank c.toLower = isBlank c := by
  rw [Bool.eq_iff_iff]
  unfold isBlank
  rw [toNat_toLower]
  simp only [Bool.or_eq_true, Bool.and_eq_true, decide_eq_true_eq, beq_iff_eq]
  split <;> omega

theorem trim_map_toLower (s : String) :
    trim (s.map Char.toLower) = (trim s).map Char.toLower := by
  have hblank : isBlank ∘ Char.toLower = isBlank := funext isBlank_toLower
  unfold trim skipBlanks dropTrailingBlanks
  rw [← String.toList_inj, String.toList_map, String.toList_map, String.toList_ofList,
    String.toList_ofList, List.dropWhile_map, hblank, ← List.map_reverse, List.dropWhile_map, hblank,
    List.map_reverse]

end Text

namespace Destination

open Json Text

/-! ### The grammar of names -/

/-- The texts that name a destination: its name or its short name in any letter case, and blanks
around it. -/
def IsNamedBy (destination : Destination) (text : String) : Prop :=
  ∃ before name after, AllBlank before ∧ AllBlank after ∧ text = before ++ name ++ after ∧
    (CaseVariant name destination.name ∨ CaseVariant name destination.shortName)

theorem find?_eq_some_iff (key : String) (destination : Destination) :
    all.find? (fun other => key == other.name || key == other.shortName) = some destination ↔
      key = destination.name ∨ key = destination.shortName := by
  constructor
  · intro h
    have hfound := List.find?_some h
    rwa [Bool.or_eq_true, beq_iff_eq, beq_iff_eq] at hfound
  · rintro (rfl | rfl) <;> cases destination <;> decide +kernel

theorem map_toLower_name (destination : Destination) :
    destination.name.map Char.toLower = destination.name := by
  cases destination <;> decide +kernel

theorem map_toLower_shortName (destination : Destination) :
    destination.shortName.map Char.toLower = destination.shortName := by
  cases destination <;> decide +kernel

theorem parse?_eq_some_iff_trim (text : String) (destination : Destination) :
    parse? text = some destination ↔ CaseVariant (trim text) destination.name ∨
      CaseVariant (trim text) destination.shortName := by
  rw [parse?, find?_eq_some_iff, ← map_toLower_eq_iff_caseVariant,
    ← map_toLower_eq_iff_caseVariant, map_toLower_name, map_toLower_shortName]

theorem parse?_padded {before after : String} (hbefore : AllBlank before)
    (hafter : AllBlank after) (text : String) : parse? (before ++ text ++ after) = parse? text := by
  rw [parse?, trim_padded hbefore hafter, parse?]

theorem parse?_eq_of_caseVariant {text other : String} (h : CaseVariant text other) :
    parse? text = parse? other := by
  have hkey : (trim text).map Char.toLower = (trim other).map Char.toLower := by
    rw [← trim_map_toLower, ← trim_map_toLower, (map_toLower_eq_iff_caseVariant text other).mpr h]
  rw [parse?, hkey, parse?]

theorem parse?_name (destination : Destination) : parse? destination.name = some destination := by
  cases destination <;> decide +kernel

theorem parse?_shortName (destination : Destination) :
    parse? destination.shortName = some destination := by
  cases destination <;> decide +kernel

/-- **The grammar of names**: what is read as a destination is just what names it. -/
theorem parse?_eq_some_iff (text : String) (destination : Destination) :
    parse? text = some destination ↔ destination.IsNamedBy text := by
  constructor
  · intro h
    obtain ⟨before, after, hbefore, hafter, htext⟩ := exists_eq_padded text
    exact ⟨before, trim text, after, hbefore, hafter, htext,
      (parse?_eq_some_iff_trim text destination).mp h⟩
  · rintro ⟨before, name, after, hbefore, hafter, rfl, hname | hname⟩
    · rw [parse?_padded hbefore hafter, parse?_eq_of_caseVariant hname, parse?_name]
    · rw [parse?_padded hbefore hafter, parse?_eq_of_caseVariant hname, parse?_shortName]

theorem parse_eq_ok_iff (text : String) (destination : Destination) :
    parse text = .ok destination ↔ destination.IsNamedBy text := by
  rw [← parse?_eq_some_iff, parse]
  cases parse? text with
  | none => exact ⟨nofun, nofun⟩
  | some other => rw [Except.ok.injEq, Option.some.injEq]

theorem parse_eq_error_iff (text : String) (error : ExportError) :
    parse text = .error error ↔ (∀ destination : Destination, ¬ destination.IsNamedBy text) ∧
      error = .unsupportedDestination text := by
  simp only [← parse?_eq_some_iff]
  rw [parse]
  cases parse? text with
  | none =>
      rw [Except.error.injEq, eq_comm]
      exact ⟨fun h => ⟨nofun, h⟩, And.right⟩
  | some destination => exact ⟨nofun, fun h => absurd rfl (h.1 destination)⟩

/-! ### The JSON form -/

theorem lookup_eq_some_iff (s : String) (destination : Destination) :
    (all.map (fun other => (other.name, other))).lookup s = some destination ↔
      s = destination.name := by
  constructor
  · intro h
    obtain ⟨front, back, hsplit, -⟩ := List.lookup_eq_some_iff.mp h
    have hmem : (s, destination) ∈ all.map (fun other => (other.name, other)) := by
      rw [hsplit]
      exact List.mem_append_right front List.mem_cons_self
    obtain ⟨other, -, heq⟩ := List.mem_map.mp hmem
    cases heq
    rfl
  · rintro rfl
    cases destination <;> decide +kernel

theorem codec_decode_eq_ok_iff (value : Value) (destination : Destination) :
    codec.decode value = .ok destination ↔
      value = .string destination.name ∨ value = .object [(destination.name, .null)] := by
  rw [codec, Codec.choice_decode_eq_ok_iff]
  simp only [lookup_eq_some_iff, exists_eq_left]

theorem codec_read_isName {text : String} {destination : Destination}
    (h : codec.read text = .ok destination) :
    ∃ tree : Tree, Writes text tree ∧ tree.IsName destination.name := by
  obtain ⟨rest, hscan, hrest⟩ := readWith_eq_ok_iff.mp h
  obtain ⟨tree, hbegins, s, hname, hlookup⟩ := Codec.Sound.choice _ _ _ _ _ hscan
  rw [lookup_eq_some_iff] at hlookup
  exact ⟨tree, ⟨rest, hbegins, hrest⟩, hlookup ▸ hname⟩

/-- **Which texts name a destination.**  A text is read as a destination if and only if it is its name
or its short name in any case of the ASCII letters, with blanks before and behind; any other text is
refused as it stands.  So blanks around a text and the case of its letters make no difference to what
it is read as.  The JSON form, as a value and as a text, knows the long names only, as they are, and
these are read as the same destinations. -/
theorem names_read :
    (∀ (text : String) (destination : Destination),
      parse text = .ok destination ↔ destination.IsNamedBy text) ∧
      (∀ text : String, (∀ destination : Destination, ¬ destination.IsNamedBy text) →
        parse text = .error (.unsupportedDestination text)) ∧
      (∀ before text after : String, AllBlank before → AllBlank after →
        ∀ destination, parse (before ++ text ++ after) = .ok destination ↔
          parse text = .ok destination) ∧
      (∀ text other : String, CaseVariant text other →
        ∀ destination, parse text = .ok destination ↔ parse other = .ok destination) ∧
      (∀ (value : Value) (destination : Destination), codec.decode value = .ok destination ↔
        value = .string destination.name ∨ value = .object [(destination.name, .null)]) ∧
      (∀ (text : String) (destination : Destination), codec.read text = .ok destination →
        ∃ tree : Tree, Writes text tree ∧ tree.IsName destination.name) ∧
      ∀ destination : Destination, parse destination.name = .ok destination := by
  have hparse (text : String) (destination : Destination) :
      parse text = .ok destination ↔ parse? text = some destination := by
    rw [parse_eq_ok_iff, parse?_eq_some_iff]
  refine ⟨parse_eq_ok_iff, fun text h => (parse_eq_error_iff _ _).mpr ⟨h, rfl⟩, ?_, ?_,
    codec_decode_eq_ok_iff, fun text destination h => codec_read_isName h, ?_⟩
  · intro before text after hbefore hafter destination
    rw [hparse, hparse, parse?_padded hbefore hafter]
  · intro text other h destination
    rw [hparse, hparse, parse?_eq_of_caseVariant h]
  · intro destination
    rw [hparse, parse?_name]

/-- A short name in mixed case between an ideographic space and a tab is read; with a full-width
letter, or with a blank inside, a name is none. -/
theorem names_read_of_padded :
    AllBlank "\u3000" ∧ AllBlank "\t" ∧ CaseVariant "Gl_Sequenced" "gl_sequenced" ∧
      parse "\u3000Gl_Sequenced\t" = .ok .sequencedLedger ∧
      parse " ｇl" = .error (.unsupportedDestination " ｇl") ∧
      parse "general ledger" = .error (.unsupportedDestination "general ledger") := by
  have hbefore : AllBlank "\u3000" := by decide
  have hafter : AllBlank "\t" := by decide
  have hname : CaseVariant "Gl_Sequenced" "gl_sequenced" := by
    rw [← map_toLower_eq_iff_caseVariant, ← String.toList_inj, String.toList_map, String.toList_map]
    decide
  obtain ⟨hread, hrefused, -⟩ := names_read
  have hnone {text : String} (h : parse? text = none) (destination : Destination) :
      ¬ destination.IsNamedBy text := by
    rw [← parse?_eq_some_iff, h]
    exact nofun
  refine ⟨hbefore, hafter, hname, ?_, hrefused _ (hnone (by decide +kernel)),
    hrefused _ (hnone (by decide +kernel))⟩
  exact (hread _ _).mpr ⟨_, _, _, hbefore, hafter, by decide +kernel, Or.inr hname⟩

end Destination

end Posting
