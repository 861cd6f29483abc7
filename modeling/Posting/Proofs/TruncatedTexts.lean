import Posting.Row

/-! # Truncated texts, by characters and by bytes

A text is cut at a byte, and what is left is said in characters.

* `Text.charIndex?_of_lt`: a text with characters left over is cut at a byte between two characters.
* `Text.toList_truncate_min` and `Text.exists_toUTF8_append`: what is left are the first characters,
  whose bytes begin the text.
* `Text.truncate_truncate`: of two widths the smaller one counts.

`Text.truncated_between_characters` puts these together. -/

namespace Posting.Text

/-! ### Where a text is cut -/

theorem charIndex?_of_lt {most : Nat} {text : String} (h : most < text.length) :
    ∃ index, charIndex? text 0 most = some index ∧ (String.Pos.Raw.mk index).IsValid text ∧
      (truncate most text).toUTF8 = text.toUTF8.extract 0 index := by
  have hindex := charIndex?_eq_some_iff.mpr ⟨h, rfl⟩
  refine ⟨_, hindex, isValid_of_charIndex? hindex, ?_⟩
  simpa using toByteArray_truncate hindex

theorem exists_toUTF8_append (most : Nat) (text : String) :
    ∃ rest : ByteArray, text.toUTF8 = (truncate most text).toUTF8 ++ rest := by
  have hsplit : truncate most text ++ String.ofList (text.toList.drop most) = text := by
    rw [truncate_eq, ofList_take_append_drop]
  refine ⟨(String.ofList (text.toList.drop most)).toByteArray, ?_⟩
  simp only [String.toUTF8_eq_toByteArray, ← String.toByteArray_append, hsplit]

/-! ### What is left -/

theorem toList_truncate_min (most : Nat) (text : String) :
    (truncate most text).toList = text.toList.take (min most text.length) := by
  rw [toList_truncate, ← String.length_toList, ← List.take_eq_take_min]

theorem truncate_truncate (most other : Nat) (text : String) :
    truncate other (truncate most text) = truncate (min most other) text := by
  rw [← String.toList_inj]
  simp only [toList_truncate, List.take_take, Nat.min_comm]

theorem truncate_self (most : Nat) (text : String) :
    truncate most (truncate most text) = truncate most text := by
  rw [truncate_truncate, Nat.min_self]

/-- **No character is cut in two.**  A text with more characters than asked for is cut at a byte
between two characters, and any other text is left as it is, a description of at most 60 characters
in particular.  What is left has the first bytes of the text and is made of its first characters, as
many as asked for or as there are.  Cut twice, a text is cut to the smaller width, so that it is not
changed where it is cut to the same width again. -/
theorem truncated_between_characters (most : Nat) (text : String) :
    (most < text.length →
      ∃ index, charIndex? text 0 most = some index ∧ (String.Pos.Raw.mk index).IsValid text ∧
        (truncate most text).toUTF8 = text.toUTF8.extract 0 index) ∧
      (text.length ≤ most → charIndex? text 0 most = none ∧ truncate most text = text) ∧
      (∃ rest : ByteArray, text.toUTF8 = (truncate most text).toUTF8 ++ rest) ∧
      (truncate most text).toList = text.toList.take (min most text.length) ∧
      (∀ other : Nat, truncate other (truncate most text) = truncate (min most other) text) ∧
      truncate most (truncate most text) = truncate most text ∧
      (text.length ≤ 60 → truncate descriptionWidth text = text) := by
  refine ⟨charIndex?_of_lt, ?_, exists_toUTF8_append most text, toList_truncate_min most text,
    fun other => truncate_truncate most other text, truncate_self most text,
    truncate_of_length_le⟩
  intro hle
  exact ⟨charIndex?_eq_none_iff.mpr hle, truncate_of_length_le hle⟩

/-- Behind characters of one, two and three bytes a text is cut at byte 6; sixty characters of four
bytes are left as they are. -/
theorem truncated_between_characters_of_widths :
    let text := "aé€😀z"
    let wide := String.ofList (List.replicate 60 '😀')
    3 < text.length ∧ charIndex? text 0 3 = some 6 ∧ (String.Pos.Raw.mk 6).IsValid text ∧
      (truncate 3 text).toUTF8 = text.toUTF8.extract 0 6 ∧ truncate 3 text = "aé€" ∧
      wide.length ≤ 60 ∧ wide.utf8ByteSize = 240 ∧ truncate descriptionWidth wide = wide := by
  intro text wide
  have hlong : 3 < text.length := by decide
  have hshort : wide.length ≤ 60 :=
    Nat.le_of_eq (String.length_ofList.trans List.length_replicate)
  have hwide : wide.utf8ByteSize = 240 := by decide +kernel
  obtain ⟨hcut, -⟩ := truncated_between_characters 3 text
  obtain ⟨-, -, -, -, -, -, hwhole⟩ := truncated_between_characters 3 wide
  obtain ⟨index, hindex, hvalid, hbytes⟩ := hcut hlong
  have hsix : charIndex? text 0 3 = some 6 := by decide +kernel
  obtain rfl : index = 6 := Option.some.inj (hindex.symm.trans hsix)
  exact ⟨hlong, hindex, hvalid, hbytes, by decide +kernel, hshort, hwide, hwhole hshort⟩

end Posting.Text
