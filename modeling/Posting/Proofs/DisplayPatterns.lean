import Posting.Profile.Codec
import Posting.Proofs.JsonCodecs

/-! # Display patterns

A pattern is tried on one date, and what one date shows holds of all: whether a piece of a pattern
can be filled in does not depend on the date.

* `render?_eq_none_iff`: only a piece that no date has (`Item.missing`) keeps a pattern from being
  filled in, so that it can be filled in with every date or with none.
* `ofPattern_eq_ok_iff` and `ofPattern_eq_error_iff` say which patterns are accepted.
* `codec_decode_eq_ok_iff` and `codec_read_eq_ok_iff`: the JSON form accepts the same patterns.

`DisplayFormat.sample_decides` puts these together. -/

namespace Posting.Calendar

open Json

/-! ### Filling in -/

theorem Item.write?_eq_none_iff (d : Date) (item : Item) :
    item.write? d = none ↔ item = .missing := by
  cases item with
  | missing => exact ⟨fun _ => rfl, fun _ => rfl⟩
  | literal c => exact ⟨nofun, nofun⟩
  | number field padding => exact ⟨nofun, nofun⟩
  | month short => exact ⟨nofun, nofun⟩
  | weekday short => exact ⟨nofun, nofun⟩

theorem writeAll?_eq_none_iff (d : Date) (list : List Item) :
    writeAll? d list = none ↔ .missing ∈ list := by
  induction list with
  | nil => exact ⟨nofun, nofun⟩
  | cons item rest ih =>
      rw [List.mem_cons, ← ih, eq_comm (a := Item.missing), ← item.write?_eq_none_iff d]
      cases hfirst : item.write? d with
      | none => simp [writeAll?, hfirst]
      | some first => cases hrest : writeAll? d rest <;> simp [writeAll?, hfirst, hrest]

/-- **Only a piece that no date has keeps a pattern from being filled in**, with any date. -/
theorem render?_eq_none_iff (pattern : String) (d : Date) :
    render? pattern d = none ↔ .missing ∈ items pattern.toList := by
  rw [render?, Option.map_eq_none_iff, writeAll?_eq_none_iff]

theorem isSome_render?_iff (pattern : String) (d : Date) :
    (render? pattern d).isSome = true ↔ .missing ∉ items pattern.toList := by
  rw [Option.isSome_iff_ne_none, ne_eq, render?_eq_none_iff]

namespace DisplayFormat

theorem render?_pattern (format : DisplayFormat) (d : Date) :
    render? format.pattern d = some (format.write d) :=
  (Option.some_get _).symm

/-! ### Accepted patterns -/

theorem ofPattern_eq_ok_iff (pattern : String) (format : DisplayFormat) :
    ofPattern pattern = .ok format ↔
      pattern ≠ "" ∧ .missing ∉ items pattern.toList ∧ format.pattern = pattern := by
  rw [← isSome_render?_iff pattern .epoch]
  unfold ofPattern
  by_cases hempty : pattern = ""
  · simp [hempty]
  · rw [if_neg (by simpa using hempty)]
    by_cases h : (render? pattern .epoch).isSome = true
    · rw [dif_pos h, Except.ok.injEq]
      constructor
      · rintro rfl
        exact ⟨hempty, h, rfl⟩
      · rintro ⟨-, -, rfl⟩
        rfl
    · rw [dif_neg h]
      exact ⟨nofun, fun hok => absurd hok.2.1 h⟩

theorem ofPattern_eq_error_iff (pattern : String) (error : CalendarError) :
    ofPattern pattern = .error error ↔
      (pattern = "" ∨ .missing ∈ items pattern.toList) ∧ error = .invalidPattern pattern := by
  rw [← render?_eq_none_iff pattern .epoch, ← Option.not_isSome_iff_eq_none]
  unfold ofPattern
  by_cases hempty : pattern = ""
  · rw [if_pos (by simpa using hempty), Except.error.injEq]
    exact ⟨fun heq => ⟨Or.inl hempty, heq.symm⟩, fun hbad => hbad.2.symm⟩
  · rw [if_neg (by simpa using hempty)]
    by_cases h : (render? pattern .epoch).isSome = true
    · rw [dif_pos h]
      exact ⟨nofun, fun hbad => absurd h (hbad.1.resolve_left hempty)⟩
    · rw [dif_neg h, Except.error.injEq]
      exact ⟨fun heq => ⟨Or.inr h, heq.symm⟩, fun hbad => hbad.2.symm⟩

/-! ### The JSON form -/

theorem codec_decode_eq_ok_iff (value : Value) (format : DisplayFormat) :
    codec.decode value = .ok format ↔
      ∃ pattern, value = .string pattern ∧ ofPattern pattern = .ok format := by
  have htext : ∀ pattern, Codec.string.decode value = .ok pattern ↔ value = .string pattern := by
    intro pattern
    cases value with
    | string s =>
        show Except.ok s = Except.ok pattern ↔ _
        rw [Except.ok.injEq, Value.string.injEq]
    | null => exact ⟨nofun, nofun⟩
    | bool b => exact ⟨nofun, nofun⟩
    | number n => exact ⟨nofun, nofun⟩
    | array items => exact ⟨nofun, nofun⟩
    | object entries => exact ⟨nofun, nofun⟩
  rw [codec, Codec.refine_decode_eq_ok_iff]
  simp only [htext, mapError_eq_ok_iff]

theorem codec_read_eq_ok_iff (text : String) (format : DisplayFormat) :
    codec.read text = .ok format ↔
      ∃ pattern, Codec.string.read text = .ok pattern ∧ ofPattern pattern = .ok format := by
  rw [codec, Codec.refine_read_eq_ok_iff]
  simp only [mapError_eq_ok_iff]

theorem codec_readsBack {pattern : String} {format : DisplayFormat}
    (h : ofPattern pattern = .ok format) : codec.ReadsBack format := by
  have hpattern : format.pattern = pattern := ((ofPattern_eq_ok_iff _ _).mp h).2.2
  refine .refine (.string _) ?_
  rw [hpattern, h]
  rfl

/-! ### Statements -/

/-- **One sample decides.**  A pattern that is accepted can be filled in with every date, so that
every row of a statement shows its date; one that is refused, unless it is empty, can be filled in
with none.  The JSON form accepts the same patterns, as values and as texts, and gives the pattern
back unchanged; the standard format is that of an accepted pattern. -/
theorem sample_decides (pattern : String) :
    (∀ format, ofPattern pattern = .ok format →
      format.pattern = pattern ∧ (∀ d, render? pattern d = some (format.write d)) ∧
        (∀ t : Transaction, ∃ shown, render? pattern t.date = some shown ∧
          Row.statement format t = Row.line [t.amount.exportText, Row.cell t.description,
            Row.cell t.statementReference, Row.cell shown]) ∧
        codec.encode format = .string pattern ∧
        codec.decode (codec.encode format) = .ok format ∧
        codec.read (codec.encode format).pretty = .ok format) ∧
      (∀ error, ofPattern pattern = .error error → error = .invalidPattern pattern ∧
        (pattern ≠ "" → ∀ d, render? pattern d = none)) ∧
      (∀ value format, codec.decode value = .ok format ↔
        ∃ p, value = .string p ∧ ofPattern p = .ok format) ∧
      (∀ text format, codec.read text = .ok format ↔
        ∃ p, Codec.string.read text = .ok p ∧ ofPattern p = .ok format) ∧
      ofPattern standardPattern = .ok standard := by
  refine ⟨fun format h => ?_, fun error h => ?_, codec_decode_eq_ok_iff, codec_read_eq_ok_iff, ?_⟩
  · obtain ⟨-, -, rfl⟩ := (ofPattern_eq_ok_iff pattern format).mp h
    exact ⟨rfl, format.render?_pattern, fun t => ⟨_, format.render?_pattern t.date, rfl⟩, rfl,
      (codec_decode_eq_ok_iff _ _).mpr ⟨_, rfl, h⟩, (codec_readsBack h).read_pretty⟩
  · obtain ⟨hbad, rfl⟩ := (ofPattern_eq_error_iff pattern error).mp h
    refine ⟨rfl, fun hempty d => ?_⟩
    exact (render?_eq_none_iff pattern d).mpr (hbad.resolve_left hempty)
  · exact (ofPattern_eq_ok_iff _ _).mpr ⟨by decide, by decide, rfl⟩

/-- A pattern with a number that is padded with spaces is accepted, and one with the hour is not. -/
theorem sample_decides_two :
    (∃ format, ofPattern "%_d. %B %C" = .ok format ∧
      ∀ d, render? "%_d. %B %C" d = some (format.write d)) ∧
      ofPattern "%H" = .error (.invalidPattern "%H") ∧ ∀ d, render? "%H" d = none := by
  have hshown : Item.missing ∉ items "%_d. %B %C".toList := by decide
  have hrefused : ofPattern "%H" = .error (.invalidPattern "%H") :=
    (ofPattern_eq_error_iff _ _).mpr ⟨Or.inr (by decide), rfl⟩
  have haccepted :
      ofPattern "%_d. %B %C" = .ok ⟨"%_d. %B %C", (isSome_render?_iff _ _).mpr hshown⟩ :=
    (ofPattern_eq_ok_iff _ _).mpr ⟨by decide, hshown, rfl⟩
  exact ⟨⟨_, haccepted, ((sample_decides _).1 _ haccepted).2.1⟩, hrefused,
    ((sample_decides _).2.1 _ hrefused).2 (by decide)⟩

end DisplayFormat

end Posting.Calendar
