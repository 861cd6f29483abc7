/-!
# Truncated texts

A text is truncated in its UTF-8 form.  The bytes are walked through from character to character, each
of which is as wide as its first byte says, and the text is cut at the byte at which the first
character begins that is one too many.

* `charIndex?` is the byte at which the character at a place begins, if the text has so many.
* `charIndex?_eq`: it has before it the bytes of as many characters as the place says, so that it lies
  between two characters (`isValid_of_charIndex?`).
* `truncate` cuts there, and leaves the first characters (`toList_truncate`).
-/

namespace Posting.Text

/-- The number of bytes of a character, by the first of them. -/
def leadWidth (lead : UInt8) : Nat :=
  if lead < 0x80 then 1 else if lead < 0xE0 then 2 else if lead < 0xF0 then 3 else 4

/-- The byte at which a character begins that is some places behind the one that begins at byte
`index`. -/
def charIndex? (text : String) : (index place : Nat) → Option Nat
  | index, 0 => if index < text.utf8ByteSize then some index else none
  | index, place + 1 =>
    if h : index < text.utf8ByteSize then
      charIndex? text (index + leadWidth (text.getUTF8Byte ⟨index⟩ h)) place
    else none

/-! ### From one character to the next -/

theorem leadWidth_eq {lead : UInt8} (h : lead.IsUTF8FirstByte) :
    leadWidth lead = lead.utf8ByteSize h := by
  have table : ∀ n < 256, ∀ h : (UInt8.ofNat n).IsUTF8FirstByte,
      leadWidth (UInt8.ofNat n) = (UInt8.ofNat n).utf8ByteSize h := by
    decide +kernel
  have hlead := table lead.toNat lead.toNat_lt_size
  rw [UInt8.ofNat_toNat] at hlead
  exact hlead h

variable {text : String} {p : text.Pos} {front : String}

theorem charIndex?_endPos (place : Nat) :
    charIndex? text text.endPos.offset.byteIdx place = none := by
  cases place <;> simp [charIndex?]

theorem charIndex?_zero (h : p ≠ text.endPos) :
    charIndex? text p.offset.byteIdx 0 = some p.offset.byteIdx :=
  if_pos (p.byteIdx_lt_utf8ByteSize h)

theorem charIndex?_succ (h : p ≠ text.endPos) (place : Nat) :
    charIndex? text p.offset.byteIdx (place + 1) =
      charIndex? text (p.next h).offset.byteIdx place := by
  have hwidth : leadWidth (p.byte h) = (p.get h).utf8Size := by
    rw [leadWidth_eq String.Pos.isUTF8FirstByte_byte, String.Pos.utf8ByteSize_byte]
  rw [charIndex?, dif_pos (p.byteIdx_lt_utf8ByteSize h), String.Pos.getUTF8Byte_offset, hwidth,
    p.byteIdx_offset_next]

/-! ### From a character to any later one -/

theorem charIndex?_of_splits (cs : List Char) {rest : String} (hrest : rest ≠ "")
    (hp : p.Splits front (String.ofList cs ++ rest)) :
    charIndex? text p.offset.byteIdx cs.length = some (front ++ String.ofList cs).utf8ByteSize := by
  induction cs generalizing p front with
  | nil =>
      have hend : p ≠ text.endPos := by
        rwa [Ne, hp.eq_endPos_iff, String.ofList_nil, String.empty_append]
      have hindex : p.offset.byteIdx = front.utf8ByteSize :=
        congrArg String.Pos.Raw.byteIdx hp.offset_eq_rawEndPos
      rw [List.length_nil, charIndex?_zero hend, hindex, String.ofList_nil, String.append_empty]
  | cons c cs ih =>
      have hsplit : String.ofList (c :: cs) = String.singleton c ++ String.ofList cs := by
        rw [String.singleton_eq_ofList, ← String.ofList_append, List.singleton_append]
      rw [hsplit, String.append_assoc] at hp
      -- the walk comes from between two characters to between the next two: `hp.next`
      rw [List.length_cons, charIndex?_succ hp.ne_endPos_of_singleton, ih hp.next, hsplit,
        String.append_assoc]

theorem charIndex?_of_le {back : String} (hp : p.Splits front back) {place : Nat}
    (hle : back.length ≤ place) : charIndex? text p.offset.byteIdx place = none := by
  induction place generalizing p front back with
  | zero =>
      have hback : back = "" := String.length_eq_zero_iff.mp (Nat.le_zero.mp hle)
      rw [hp.eq_endPos_iff.mpr hback, charIndex?_endPos]
  | succ place ih =>
      by_cases hend : p = text.endPos
      · rw [hend, charIndex?_endPos]
      · obtain ⟨rest, rfl⟩ := hp.exists_eq_singleton_append hend
        rw [String.length_append, String.length_singleton] at hle
        rw [charIndex?_succ hend]
        exact ih hp.next (by omega)

theorem ofList_take_append_drop (text : String) (place : Nat) :
    String.ofList (text.toList.take place) ++ String.ofList (text.toList.drop place) = text := by
  rw [← String.ofList_append, List.take_append_drop, String.ofList_toList]

theorem charIndex?_eq (text : String) (place : Nat) :
    charIndex? text 0 place =
      if place < text.length then some (String.ofList (text.toList.take place)).utf8ByteSize
      else none := by
  have hstart : text.startPos.offset.byteIdx = 0 := rfl
  rw [← hstart]
  split
  next hlt =>
      have hrest : String.ofList (text.toList.drop place) ≠ "" := by
        simp only [Ne, ← String.length_eq_zero_iff, String.length_ofList, List.length_drop,
          String.length_toList]
        omega
      have hsplits : text.startPos.Splits "" (String.ofList (text.toList.take place) ++
          String.ofList (text.toList.drop place)) := by
        rw [ofList_take_append_drop]
        exact text.splits_startPos
      have hindex := charIndex?_of_splits (text.toList.take place) hrest hsplits
      rwa [List.length_take_of_le (by rw [String.length_toList]; omega),
        String.empty_append] at hindex
  next hge => exact charIndex?_of_le text.splits_startPos (Nat.le_of_not_lt hge)

theorem charIndex?_eq_some_iff {place index : Nat} : charIndex? text 0 place = some index ↔
    place < text.length ∧ (String.ofList (text.toList.take place)).utf8ByteSize = index := by
  rw [charIndex?_eq]
  split
  next hlt => rw [Option.some.injEq, and_iff_right hlt]
  next hge => exact ⟨nofun, fun h => absurd h.1 hge⟩

/-- **No character begins inside another.** -/
theorem isValid_of_charIndex? {place index : Nat} (h : charIndex? text 0 place = some index) :
    (String.Pos.Raw.mk index).IsValid text := by
  obtain ⟨-, hindex⟩ := charIndex?_eq_some_iff.mp h
  exact String.Pos.Raw.isValid_iff_exists_take_toList.mpr ⟨place, hindex.symm⟩

theorem charIndex?_eq_none_iff {place : Nat} :
    charIndex? text 0 place = none ↔ text.length ≤ place := by
  rw [charIndex?_eq, ite_eq_right_iff, ← Nat.not_lt]
  exact ⟨fun h hlt => absurd (h hlt) nofun, fun h hlt => absurd hlt h⟩

/-! ### Cutting -/

/-- A text up to the character at place `most`, if it has so many. It can only be cut between two
characters, so that where it is cut is shown to lie there. -/
def truncate (most : Nat) (text : String) : String :=
  match h : charIndex? text 0 most with
  | some index => String.extract text.startPos ⟨⟨index⟩, isValid_of_charIndex? h⟩
  | none => text

theorem toByteArray_truncate {most index : Nat} (h : charIndex? text 0 most = some index) :
    (truncate most text).toByteArray = text.toByteArray.extract 0 index := by
  unfold truncate
  split
  next found hfound =>
      rw [Option.some.inj (h.symm.trans hfound)]
      exact String.toByteArray_extract
  next hnone => rw [h] at hnone; cases hnone

theorem truncate_of_length_le {most : Nat} (h : text.length ≤ most) : truncate most text = text := by
  rw [← charIndex?_eq_none_iff] at h
  unfold truncate
  split
  next index hindex => rw [h] at hindex; cases hindex
  next => rfl

/-- **What is left are the first characters.** -/
theorem truncate_eq (most : Nat) (text : String) :
    truncate most text = String.ofList (text.toList.take most) := by
  by_cases hle : text.length ≤ most
  · rw [truncate_of_length_le hle, List.take_of_length_le (by rwa [String.length_toList]),
      String.ofList_toList]
  · have hindex := charIndex?_eq_some_iff.mpr ⟨Nat.lt_of_not_le hle, rfl⟩
    have hbytes : text.toByteArray = (String.ofList (text.toList.take most)).toByteArray ++
        (String.ofList (text.toList.drop most)).toByteArray := by
      rw [← String.toByteArray_append, ofList_take_append_drop]
    rw [← String.toByteArray_inj, toByteArray_truncate hindex, hbytes,
      ByteArray.extract_append_eq_left String.size_toByteArray.symm]

theorem toList_truncate (most : Nat) (text : String) :
    (truncate most text).toList = text.toList.take most := by
  rw [truncate_eq, String.toList_ofList]

end Posting.Text
