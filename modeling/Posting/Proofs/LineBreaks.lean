import Posting.Proofs.BatchFiles

/-! # Line breaks in batch files

A line break is a line feed or a carriage return.  Numbers and the names of months have none in them
(`Text.Unbroken`), and a display pattern writes those that stand in it, a line feed for each `%n`,
and no others (`patternBreaks`, `DisplayFormat.count_write`).

So transactions without line breaks leave a file with one line feed for each of its lines, and beyond
that with what the profile itself puts there (`Profile.breaks`): for a journal the line breaks in the
name of the application, and for a statement those in the pattern, once for each row.  A profile is
accepted with such texts all the same.

`Profile.count_render` puts these together. -/

namespace Posting

open Calendar Text

/-- The characters that end a line. -/
def IsBreak (c : Char) : Prop :=
  c = '\n' ∨ c = '\r'

instance (c : Char) : Decidable (IsBreak c) :=
  inferInstanceAs (Decidable (_ ∨ _))

theorem IsBreak.ne {c d : Char} (h : IsBreak c) (hd : ¬ (d = '\n' ∨ d = '\r')) : c ≠ d := by
  rintro rfl
  exact hd h

/-- The line feed at the end of a line. -/
def lineEnds (c : Char) : Nat :=
  if c = '\n' then 1 else 0

namespace Text

/-! ### Texts without line breaks -/

/-- Characters of which none ends a line. -/
def Unbroken (cs : List Char) : Prop :=
  '\n' ∉ cs ∧ '\r' ∉ cs

instance (cs : List Char) : Decidable (Unbroken cs) :=
  inferInstanceAs (Decidable (_ ∧ _))

theorem unbroken_nil : Unbroken [] :=
  ⟨List.not_mem_nil, List.not_mem_nil⟩

theorem Unbroken.append {front back : List Char} (hfront : Unbroken front)
    (hback : Unbroken back) : Unbroken (front ++ back) := by
  simp only [Unbroken, List.mem_append, not_or]
  exact ⟨⟨hfront.1, hback.1⟩, hfront.2, hback.2⟩

theorem Unbroken.cons {c : Char} {cs : List Char} (hc : ¬ (c = '\n' ∨ c = '\r'))
    (h : Unbroken cs) : Unbroken (c :: cs) := by
  rw [not_or] at hc
  simp only [Unbroken, List.mem_cons, not_or]
  exact ⟨⟨Ne.symm hc.1, h.1⟩, Ne.symm hc.2, h.2⟩

theorem Unbroken.take {cs : List Char} (h : Unbroken cs) (most : Nat) : Unbroken (cs.take most) :=
  ⟨fun hmem => h.1 (List.mem_of_mem_take hmem), fun hmem => h.2 (List.mem_of_mem_take hmem)⟩

theorem Unbroken.count {cs : List Char} (h : Unbroken cs) {c : Char} (hc : IsBreak c) :
    cs.count c = 0 := by
  rcases hc with rfl | rfl
  · exact List.count_eq_zero.mpr h.1
  · exact List.count_eq_zero.mpr h.2

theorem Numeric.unbroken {cs : List Char} (h : Numeric cs) : Unbroken cs :=
  ⟨h.not_mem (by decide), h.not_mem (by decide)⟩

theorem AllDigits.unbroken {cs : List Char} (h : AllDigits cs) : Unbroken cs :=
  h.numeric.unbroken

theorem Unbroken.ofList_take {s : String} (h : Unbroken s.toList) (most : Nat) :
    Unbroken (String.ofList (s.toList.take most)).toList := by
  rw [String.toList_ofList]
  exact h.take most

theorem count_intercalate {separator c : Char} (hc : c ≠ separator) (parts : List (List Char)) :
    ([separator].intercalate parts).count c = (parts.map (List.count c)).sum := by
  induction parts with
  | nil => rfl
  | cons part parts ih =>
      cases parts with
      | nil => simp [List.intercalate_singleton]
      | cons next parts =>
          have hseparator : [separator].count c = 0 := by simp [Ne.symm hc]
          rw [List.intercalate_cons_cons, List.count_append, List.count_append, hseparator, ih,
            List.map_cons (l := next :: parts), List.sum_cons, Nat.add_zero]

end Text

/-! ### Dates -/

namespace Calendar

/-- The code of a character is the one asked for, or zero if there is no such character. -/
theorem toNat_ofNat_eq (n : Nat) : (Char.ofNat n).toNat = n ∨ (Char.ofNat n).toNat = 0 := by
  unfold Char.ofNat
  by_cases h : n.isValidChar
  · rw [dif_pos h]
    exact Or.inl rfl
  · rw [dif_neg h]
    exact Or.inr rfl

theorem unbroken_ofNat (n : Nat) : Unbroken [Char.ofNat ('0'.toNat + n)] := by
  have hcode := toNat_ofNat_eq ('0'.toNat + n)
  rw [show '0'.toNat = 48 from rfl] at hcode ⊢
  refine Unbroken.cons ?_ unbroken_nil
  rintro (h | h)
  · rw [h, show '\n'.toNat = 10 from rfl] at hcode
    omega
  · rw [h, show '\r'.toNat = 13 from rfl] at hcode
    omega

theorem unbroken_spaced (width n : Nat) : Unbroken ((digits n).leftpad width ' ') := by
  have hspaces : Unbroken (List.replicate (width - (digits n).length) ' ') :=
    ⟨fun h => absurd (List.eq_of_mem_replicate h) (by decide),
      fun h => absurd (List.eq_of_mem_replicate h) (by decide)⟩
  exact hspaces.append (allDigits_digits n).unbroken

theorem Padding.unbroken_write (padding : Padding) (width n : Nat) :
    Unbroken (padding.write width n) := by
  cases padding with
  | bare => exact (allDigits_digits n).unbroken
  | zeros => exact (allDigits_padded width n).unbroken
  | spaces => exact unbroken_spaced width n

theorem Padding.unbroken_writePair (padding : Padding) (n : Nat) :
    Unbroken (padding.writePair n) := by
  have hones := unbroken_ofNat (n % 10)
  unfold Padding.writePair
  split
  · exact hones
  · exact hones.cons (by decide)
  · exact (unbroken_ofNat _).append hones

theorem Padding.unbroken_writeYear (padding : Padding) (year : Int) :
    Unbroken (padding.writeYear year) := by
  have hsigned : Unbroken ((if year < 0 then '-' else '+') :: digits year.natAbs) :=
    (allDigits_digits _).unbroken.cons (by split <;> decide)
  unfold Padding.writeYear
  split
  · exact (numeric_yearText year).unbroken
  · split
    · exact padding.unbroken_write 4 _
    · simp only
      split
      · -- the sign comes behind the spaces
        have hspaces (count : Nat) : Unbroken (List.replicate count ' ') :=
          ⟨fun h => absurd (List.eq_of_mem_replicate h) (by decide),
            fun h => absurd (List.eq_of_mem_replicate h) (by decide)⟩
        exact (hspaces _).append hsigned
      · exact hsigned

theorem DateField.unbroken_write (padding : Padding) (d : Date) (field : DateField) :
    Unbroken (field.write padding d) := by
  cases field
  case year | isoYear => exact padding.unbroken_writeYear _
  case quarter | weekdayFromSunday | weekdayFromMonday => exact (allDigits_digits _).unbroken
  case dayOfYear => exact padding.unbroken_write 3 _
  all_goals exact padding.unbroken_writePair _

theorem unbroken_monthName (month : Nat) : Unbroken (monthName month).toList := by
  unfold monthName
  split <;> decide

theorem unbroken_weekdayName (day : Nat) : Unbroken (weekdayName day).toList := by
  unfold weekdayName
  split <;> decide

theorem unbroken_shortened (short : Bool) {name : String} (h : Unbroken name.toList) :
    Unbroken (shortened short name) := by
  cases short with
  | true => exact h.take 3
  | false => exact h

theorem Date.unbroken_monthAndYear (d : Date) : Unbroken d.monthAndYear.toList := by
  rw [Date.monthAndYear, String.toList_ofList]
  exact (unbroken_monthName d.month).append ((numeric_yearText d.year).unbroken.cons (by decide))

/-! ### Patterns -/

variable {c : Char}

/-- The number of times that a pattern asks for a line feed by `%n`; a percent sign takes the
character behind it along. -/
def feedMarks : List Char → Nat
  | '%' :: 'n' :: rest => feedMarks rest + 1
  | '%' :: _ :: rest => feedMarks rest
  | _ :: rest => feedMarks rest
  | [] => 0

/-- The line breaks of a pattern: those that stand in it, and the line feeds that it asks for. -/
def patternBreaks (c : Char) (pattern : List Char) : Nat :=
  pattern.count c + feedMarks pattern * lineEnds c

theorem feedMarks_cons {d : Char} (h : d ≠ '%') (rest : List Char) :
    feedMarks (d :: rest) = feedMarks rest := by
  rw [feedMarks]
  · exact fun _ hd => absurd hd h
  · exact fun _ _ hd => absurd hd h

theorem feedMarks_percent (d : Char) (rest : List Char) :
    feedMarks ('%' :: d :: rest) = feedMarks rest + if d = 'n' then 1 else 0 := by
  by_cases h : d = 'n'
  · rw [h, feedMarks, if_pos rfl]
  · rw [feedMarks, if_neg h, Nat.add_zero]
    exact h

theorem letter_of_field? {d : Char} {named : DateField × Padding} (h : field? d = some named) :
    d ≠ '%' ∧ ¬ IsBreak d := by
  refine ⟨?_, ?_⟩
  · rintro rfl
    cases h
  · rintro (rfl | rfl) <;> cases h

theorem letteredWith_eq {padding : Padding} {d : Char} (h : letteredWith padding d ≠ .missing) :
    (∃ field, letteredWith padding d = .number field padding) ∧ d ≠ '%' ∧ ¬ IsBreak d := by
  unfold letteredWith at h ⊢
  cases hfield : field? d with
  | none =>
      rw [hfield] at h
      exact absurd rfl h
  | some named => exact ⟨⟨named.1, rfl⟩, letter_of_field? hfield⟩

/-- Of what a letter stands for, only the mark of a line feed is a line break. -/
theorem count_lettered (hc : IsBreak c) {d : Char} (h : .missing ∉ lettered d) :
    (lettered d).count (.literal c) = (if d = 'n' then 1 else 0) * lineEnds c ∧ ¬ IsBreak d := by
  unfold lettered at h ⊢
  cases hfield : field? d with
  | some named =>
      refine ⟨?_, (letter_of_field? hfield).2⟩
      have hn : d ≠ 'n' := by
        rintro rfl
        cases hfield
      simp [hn]
  | none =>
      rw [hfield] at h
      dsimp only at h ⊢
      split at h
      any_goals exact absurd (List.mem_singleton_self _) h
      all_goals rcases hc with rfl | rfl <;> decide

/-- A number that a sign and a letter ask for is no line break, and neither are they. -/
theorem count_signed (hc : IsBreak c) {padding : Padding} {sign d : Char} {rest : List Char}
    (hsign : ¬ IsBreak sign ∧ sign ≠ 'n') (h : .missing ≠ letteredWith padding d)
    (hrest : (items rest).count (.literal c) = patternBreaks c rest) :
    (letteredWith padding d :: items rest).count (.literal c) =
      patternBreaks c ('%' :: sign :: d :: rest) := by
  obtain ⟨⟨field, hfield⟩, hd, hbreak⟩ := letteredWith_eq (Ne.symm h)
  have hpercent : '%' ≠ c := (hc.ne (by decide)).symm
  have hother : Item.number field padding ≠ .literal c := nofun
  rw [hfield, List.count_cons_of_ne hother, hrest, patternBreaks, patternBreaks,
    feedMarks_percent, if_neg hsign.2, feedMarks_cons hd, List.count_cons_of_ne hpercent,
    List.count_cons_of_ne (hc.ne hsign.1).symm, List.count_cons_of_ne (hc.ne hbreak).symm,
    Nat.add_zero]

/-- **The pieces of a pattern have its line breaks**, if it names nothing that no date has. -/
theorem count_items (hc : IsBreak c) {cs : List Char} (h : .missing ∉ items cs) :
    (items cs).count (.literal c) = patternBreaks c cs := by
  have hpercent : '%' ≠ c := (hc.ne (by decide)).symm
  induction cs using items.induct with
  | case1 => rw [items, patternBreaks, feedMarks, Nat.zero_mul]; rfl
  | case2 => exact absurd (List.mem_singleton_self _) h
  | case3 d rest ih | case4 d rest ih | case5 d rest ih =>
      rw [items, List.mem_cons, not_or] at h
      exact count_signed hc (by decide) h.1 (ih h.2)
  | case6 d rest hbare hzeros hspaces ih =>
      have hitems : items ('%' :: d :: rest) = lettered d ++ items rest := by
        rw [items] <;> assumption
      rw [hitems, List.mem_append, not_or] at h
      obtain ⟨hcount, hbreak⟩ := count_lettered hc h.1
      rw [hitems, List.count_append, hcount, ih h.2, patternBreaks, patternBreaks,
        feedMarks_percent, List.count_cons_of_ne hpercent,
        List.count_cons_of_ne (hc.ne hbreak).symm, Nat.add_mul]
      omega
  | case7 d rest hlone hbare hzeros hspaces hother ih =>
      have hd : d ≠ '%' := by
        rintro rfl
        cases rest with
        | nil => exact hlone rfl rfl
        | cons next rest => exact hother next rest rfl rfl
      have hitems : items (d :: rest) = .literal d :: items rest := by
        rw [items] <;> assumption
      rw [hitems, List.mem_cons, not_or] at h
      rw [hitems, List.count_cons, ih h.2, patternBreaks, patternBreaks, feedMarks_cons hd,
        List.count_cons]
      simp only [beq_iff_eq, Item.literal.injEq]
      omega

theorem Item.count_write? (hc : IsBreak c) {d : Date} {item : Item} {cs : List Char}
    (h : item.write? d = some cs) : cs.count c = if item = .literal c then 1 else 0 := by
  cases item with
  | literal other =>
      cases h
      simp [List.count_singleton, Item.literal.injEq]
  | number field padding =>
      cases h
      rw [(field.unbroken_write padding d).count hc, if_neg nofun]
  | month short =>
      cases h
      rw [(unbroken_shortened short (unbroken_monthName _)).count hc, if_neg nofun]
  | weekday short =>
      cases h
      rw [(unbroken_shortened short (unbroken_weekdayName _)).count hc, if_neg nofun]
  | missing => cases h

theorem count_writeAll? (hc : IsBreak c) {d : Date} {list : List Item} {cs : List Char}
    (h : writeAll? d list = some cs) : cs.count c = list.count (.literal c) := by
  induction list generalizing cs with
  | nil =>
      cases h
      rfl
  | cons item rest ih =>
      cases hfirst : item.write? d with
      | none => simp [writeAll?, hfirst] at h
      | some first =>
          cases hrest : writeAll? d rest with
          | none => simp [writeAll?, hfirst, hrest] at h
          | some others =>
              have hcs : cs = first ++ others := by
                simpa [writeAll?, hfirst, hrest] using h.symm
              rw [hcs, List.count_append, Item.count_write? hc hfirst, ih hrest, List.count_cons,
                Nat.add_comm]
              simp

/-- **A format writes the line breaks of its pattern**, and no others. -/
theorem DisplayFormat.count_write (hc : IsBreak c) (format : DisplayFormat) (d : Date) :
    (format.write d).toList.count c = patternBreaks c format.pattern.toList := by
  have hwritten := format.render?_pattern d
  rw [render?, Option.map_eq_some_iff] at hwritten
  obtain ⟨cs, hcs, htext⟩ := hwritten
  rw [← htext, String.toList_ofList, count_writeAll? hc hcs,
    count_items hc ((isSome_render?_iff _ _).mp format.usable)]

end Calendar

/-! ### Transactions -/

namespace Transaction

/-- The texts of a transaction. -/
def texts (t : Transaction) : List String :=
  t.account.toList ++ t.reference.toList ++ t.incomeAccount.toList ++
    [t.description, t.householdId, t.entityCode, t.accountNumber, t.costCenter, t.policyName, t.name]

/-- A transaction of which no text has a line break. -/
def Unbroken (t : Transaction) : Prop :=
  ∀ s ∈ t.texts, Text.Unbroken s.toList

instance (t : Transaction) : Decidable t.Unbroken :=
  inferInstanceAs (Decidable (∀ s ∈ t.texts, Text.Unbroken s.toList))

theorem unbroken_withSuffix {base suffix : String} (hbase : Text.Unbroken base.toList)
    (hsuffix : Text.Unbroken suffix.toList) : Text.Unbroken (withSuffix base suffix).toList := by
  unfold withSuffix
  split
  · exact hbase
  · rw [String.toList_append, String.toList_append]
    exact (hbase.append (by decide)).append hsuffix

variable {t : Transaction} (h : t.Unbroken)
include h

theorem Unbroken.account_getD {fallback : String} (hfallback : Text.Unbroken fallback.toList) :
    Text.Unbroken (t.account.getD fallback).toList := by
  cases haccount : t.account with
  | none => exact hfallback
  | some account => exact h account (by simp [texts, haccount])

theorem Unbroken.reference_getD {fallback : String} (hfallback : Text.Unbroken fallback.toList) :
    Text.Unbroken (t.reference.getD fallback).toList := by
  cases hreference : t.reference with
  | none => exact hfallback
  | some reference => exact h reference (by simp [texts, hreference])

theorem Unbroken.description : Text.Unbroken t.description.toList :=
  h _ (by simp [texts])

theorem Unbroken.ledgerAccount : Text.Unbroken t.ledgerAccount.toList := by
  refine h.account_getD ?_
  split
  · exact h _ (by simp [texts])
  · exact h _ (by simp [texts])

theorem Unbroken.accountKey : Text.Unbroken t.accountKey.toList := by
  rw [Transaction.accountKey, String.toList_append]
  exact Text.Unbroken.append (h _ (by simp [texts])) (h _ (by simp [texts]))

theorem Unbroken.ledgerReference : Text.Unbroken t.ledgerReference.toList := by
  refine h.reference_getD ?_
  split
  · exact unbroken_withSuffix (by decide) (h _ (by simp [texts]))
  · exact unbroken_withSuffix h.accountKey (h _ (by simp [texts]))

theorem Unbroken.statementReference : Text.Unbroken t.statementReference.toList := by
  refine h.reference_getD ?_
  split
  · refine unbroken_withSuffix ?_ (h _ (by simp [texts]))
    rw [String.toList_append]
    exact Text.Unbroken.append (by decide) (h _ (by simp [texts]))
  · refine unbroken_withSuffix ?_ (h _ (by simp [texts]))
    rw [String.toList_append, String.toList_append]
    exact (Text.Unbroken.append (h _ (by simp [texts])) (by decide)).append h.accountKey

end Transaction

/-! ### Rows -/

/-- The line breaks of the pattern that a row shows. -/
def Layout.patternBreaks (c : Char) : Layout → Nat
  | .policyholderStatement format => Calendar.patternBreaks c format.pattern.toList
  | _ => 0

section

variable {c : Char} (hc : IsBreak c)
include hc

theorem Column.count_cell (column : Column) :
    column.cell.toList.count c = column.text.toList.count c := by
  have hquote : ['"'].count c = 0 := List.count_eq_zero.mpr (by simp [hc.ne])
  cases column with
  | bare s => rfl
  | quoted s =>
      rw [Column.toList_cell_quoted, ← List.singleton_append, List.count_append, List.count_append,
        hquote]
      simp [Column.text]

theorem Row.count_line (columns : List Column) :
    (Row.line (columns.map Column.cell)).toList.count c =
      (columns.map (fun column => column.text.toList.count c)).sum + lineEnds c := by
  have hend : ['\n'].count c = lineEnds c := by
    by_cases h : c = '\n'
    · rw [h]
      rfl
    · rw [lineEnds, if_neg h, List.count_eq_zero, List.mem_singleton]
      exact h
  rw [Row.toList_line, List.count_append, hend, Row.body, String.toList_intercalate,
    show ",".toList = [','] from rfl, count_intercalate (hc.ne (by decide)), List.map_map,
    List.map_map]
  congr 2
  exact List.map_congr_left fun column _ => column.count_cell hc

theorem Text.Unbroken.sum_count {columns : List Column}
    (h : ∀ column ∈ columns, Text.Unbroken column.text.toList) :
    (columns.map (fun column => column.text.toList.count c)).sum = 0 := by
  rw [List.sum_eq_zero_iff]
  intro n hn
  obtain ⟨column, hcolumn, rfl⟩ := List.mem_map.mp hn
  exact (h column hcolumn).count hc

theorem Layout.count_row (layout : Layout) (place : Nat) {t : Transaction} (ht : t.Unbroken) :
    (layout.row place t).toList.count c = lineEnds c + layout.patternBreaks c := by
  have hleader : ∀ column ∈ leader, Text.Unbroken column.text.toList := by decide
  rw [layout.row_eq_line, Row.count_line hc, Nat.add_comm]
  congr 1
  cases layout with
  | generalLedger =>
      refine Text.Unbroken.sum_count hc (List.forall_mem_append.mpr ⟨hleader, ?_⟩)
      simp only [List.forall_mem_cons]
      exact ⟨ht.ledgerAccount, t.amount.numeric_exportText.unbroken, ht.description.ofList_take _,
        ht.ledgerReference, t.date.numeric_compact.unbroken, by rintro _ ⟨⟩⟩
  | sequencedLedger capacity =>
      refine Text.Unbroken.sum_count hc (List.forall_mem_append.mpr ⟨hleader, ?_⟩)
      simp only [List.forall_mem_cons]
      exact ⟨(numeric_sequenceNumber place).unbroken, ht.account_getD (by decide),
        t.amount.numeric_exportText.unbroken, ht.description.ofList_take _,
        ht.reference_getD (by decide), t.date.numeric_compact.unbroken, by rintro _ ⟨⟩⟩
  | policyholderStatement format =>
      simp only [columns, List.map_cons, List.map_nil, List.sum_cons, List.sum_nil, Column.text]
      rw [t.amount.numeric_exportText.unbroken.count hc, ht.description.count hc,
        ht.statementReference.count hc, format.count_write hc, patternBreaks]
      omega

/-! ### Files -/

theorem Heading.count_summaryRow (heading : Heading) :
    heading.summaryRow.toList.count c =
      heading.description.toList.count c + lineEnds c := by
  let front : List Column :=
    [.quoted "1", .quoted "000000", .quoted "00001", .quoted "", .quoted "GL", .quoted "JE",
      .quoted (String.ofList (integer heading.year)),
      .quoted (String.ofList (padded 2 heading.period)), .bare "0"]
  let back : List Column :=
    [.quoted "00", .bare "0", .bare "0", .bare "0", .bare "2"]
  have hfront : ∀ column ∈ front, Text.Unbroken column.text.toList := by
    have hyear : Text.Unbroken (integer heading.year) := by
      have hdigits := (allDigits_digits heading.year.natAbs).unbroken
      unfold integer
      split
      · exact hdigits.cons (by decide)
      · exact hdigits
    have hperiod := (allDigits_padded 2 heading.period).unbroken
    simp only [front, List.forall_mem_cons, Column.text, String.toList_ofList]
    refine ⟨?_, ?_, ?_, ?_, ?_, ?_, hyear, hperiod, ?_, by rintro _ ⟨⟩⟩
    all_goals decide
  have hback : ∀ column ∈ back, Text.Unbroken column.text.toList := by decide
  have hcolumns : heading.columns = front ++ .quoted heading.description :: back := rfl
  rw [heading.summaryRow_eq_line, Row.count_line hc, hcolumns, List.map_append, List.sum_append,
    Text.Unbroken.sum_count hc hfront, List.map_cons, List.sum_cons,
    Text.Unbroken.sum_count hc hback, Column.text]
  omega

theorem Layout.count_preamble (layout : Layout) (heading : Heading) :
    (layout.preamble heading).toList.count c =
      layout.destination.preambleLines * lineEnds c +
        if layout.destination.isLedger then heading.description.toList.count c else 0 := by
  have hcolumns {names : String} (hnames : names.toList.count '\n' = 1 ∧ names.toList.count '\r' = 0) :
      names.toList.count c = lineEnds c := by
    rcases hc with rfl | rfl
    · exact hnames.1
    · exact hnames.2
  have hsummary := heading.count_summaryRow hc
  cases layout with
  | generalLedger =>
      show (Heading.batchColumns ++ Heading.ledgerColumns ++ heading.summaryRow).toList.count c = _
      rw [String.toList_append, String.toList_append, List.count_append, List.count_append,
        hcolumns (by decide +kernel), hcolumns (by decide +kernel), hsummary]
      simp only [destination, Destination.preambleLines, Destination.isLedger, if_true]
      omega
  | sequencedLedger capacity =>
      show (Heading.batchColumns ++ Heading.sequencedColumns ++ heading.summaryRow).toList.count c = _
      rw [String.toList_append, String.toList_append, List.count_append, List.count_append,
        hcolumns (by decide +kernel), hcolumns (by decide +kernel), hsummary]
      simp only [destination, Destination.preambleLines, Destination.isLedger, if_true]
      omega
  | policyholderStatement format =>
      show Heading.statementColumns.toList.count c = _
      rw [hcolumns (by decide +kernel)]
      simp [destination, Destination.preambleLines, Destination.isLedger]

/-- **The line breaks of a batch file**: those of its lines, those of the description of a journal,
and those of the pattern once for each row of a statement. -/
theorem Batch.count_text {batch : Batch} (hclean : ∀ t ∈ batch.toList, t.Unbroken) :
    batch.render.text.toList.count c =
      (batch.destination.preambleLines + batch.size) * lineEnds c +
        (if batch.destination.isLedger then batch.heading.description.toList.count c else 0) +
        batch.size * batch.layout.patternBreaks c := by
  have hrows : batch.rows.map (fun row => row.toList.count c) =
      List.replicate batch.size (lineEnds c + batch.layout.patternBreaks c) := by
    rw [List.eq_replicate_iff, List.length_map, rows, List.length_mapIdx, length_toList]
    refine ⟨rfl, fun n hn => ?_⟩
    obtain ⟨row, hrow, rfl⟩ := List.mem_map.mp hn
    obtain ⟨i, hi, rfl⟩ := List.mem_mapIdx.mp hrow
    exact batch.layout.count_row hc (i + 1) (hclean _ (List.getElem_mem hi))
  have hjoin : (String.join batch.rows).toList.count c =
      batch.size * (lineEnds c + batch.layout.patternBreaks c) := by
    rw [String.toList_join, List.count_flatMap, show List.count c ∘ String.toList =
      fun row => row.toList.count c from rfl, hrows, List.sum_replicate, smul_eq_mul]
  show (batch.layout.preamble batch.heading ++ String.join batch.rows).toList.count c = _
  rw [String.toList_append, List.count_append, batch.layout.count_preamble hc, hjoin,
    Batch.destination, Nat.add_mul, Nat.mul_add]
  omega

end

/-! ### Profiles -/

namespace Profile

/-- The line breaks that a profile itself puts into a file with so many rows. -/
def breaks (profile : Profile) (destination : Destination) (rows : Nat) (c : Char) : Nat :=
  if destination.isLedger then profile.appName.toList.count c
  else rows * patternBreaks c profile.displayDateFormat.toList

variable {profile : Profile} {resolved : ResolvedProfile} {destination : Destination} {d : Date}
  {ts : List Transaction}

theorem count_description {c : Char} (hc : IsBreak c) (h : profile.resolve = .ok resolved) :
    (resolved.heading d).description.toList.count c = profile.appName.toList.count c := by
  have hspace : Text.Unbroken " ".toList := by decide
  have hname : Text.Unbroken " JE".toList := by decide
  show (d.monthAndYear ++ " " ++ resolved.appName ++ " JE").toList.count c = _
  rw [(parts_of_resolve h).1]
  simp only [String.toList_append, List.count_append]
  rw [d.unbroken_monthAndYear.count hc, hspace.count hc, hname.count hc]
  omega

theorem mem_of_mem_extend {t : Transaction}
    (h : t ∈ ((resolved.batch destination d).extend ts).1.toList) : t ∈ ts := by
  rw [Batch.toList_extend] at h
  rcases List.mem_append.mp h with hmem | hmem
  · cases hmem
  · exact List.mem_of_mem_filter (mem_of_mem_upTo hmem)

theorem count_extend {c : Char} (hc : IsBreak c) (h : profile.resolve = .ok resolved)
    (hclean : ∀ t ∈ ts, t.Unbroken) :
    let batch := ((resolved.batch destination d).extend ts).1
    batch.render.text.toList.count c =
      (destination.preambleLines + batch.size) * lineEnds c +
        profile.breaks destination batch.size c := by
  intro batch
  have hlayout : batch.layout = .of destination resolved.format := Batch.layout_extend ..
  have hheading : batch.heading = resolved.heading d := Batch.heading_extend ..
  have hdestination : batch.destination = destination := by
    rw [Batch.destination, hlayout]
    cases destination <;> rfl
  have hpattern := (parts_of_resolve h).2.2
  rw [Batch.count_text hc (fun t ht => hclean t (mem_of_mem_extend ht)), hdestination, hheading,
    count_description hc h, hlayout, breaks, ← hpattern]
  cases destination with
  | generalLedger => rfl
  | sequencedLedger => rfl
  | policyholderStatement => rfl

/-- A profile that puts no line break into the files of a destination with so many rows. -/
def KeepsLines (profile : Profile) (destination : Destination) (rows : Nat) : Prop :=
  if destination.isLedger then Text.Unbroken profile.appName.toList
  else rows = 0 ∨ Text.Unbroken profile.displayDateFormat.toList ∧
    feedMarks profile.displayDateFormat.toList = 0

theorem keepsLines_iff (profile : Profile) (destination : Destination) (rows : Nat) :
    profile.KeepsLines destination rows ↔
      profile.breaks destination rows '\n' = 0 ∧ profile.breaks destination rows '\r' = 0 := by
  unfold KeepsLines breaks
  split
  · rw [List.count_eq_zero, List.count_eq_zero]
    rfl
  · rw [Nat.mul_eq_zero, Nat.mul_eq_zero, ← or_and_left, patternBreaks, patternBreaks, lineEnds,
      if_pos rfl, lineEnds, if_neg (by decide), Nat.add_eq_zero_iff, Nat.mul_one, Nat.mul_zero,
      Nat.add_zero, List.count_eq_zero, List.count_eq_zero, and_right_comm]
    rfl

/-- **The lines of a file of an accepted profile.**  Transactions without line breaks leave a file
that has a line feed for each line before the rows and for each row, and beyond these the line
breaks of the profile: for a journal those in the name of the application, and for a statement those
of the pattern, which are its own and a line feed for each `%n`, once for each row.  So every row stays on one line if and only if
the profile puts no line break there. -/
theorem count_render (h : profile.resolve = .ok resolved) {text : String}
    (hnamed : Destination.parse text = .ok destination) (d : Date)
    (hclean : ∀ t ∈ ts, t.Unbroken) :
    ∃ opened, resolved.batchNamed text d = .ok opened ∧
      let batch := (opened.extend ts).1
      let written := batch.render.text.toList
      written.count '\n' = destination.preambleLines + batch.size +
          profile.breaks destination batch.size '\n' ∧
        written.count '\r' = profile.breaks destination batch.size '\r' ∧
        (written.count '\n' = destination.preambleLines + batch.size ∧ written.count '\r' = 0 ↔
          profile.KeepsLines destination batch.size) := by
  refine ⟨resolved.batch destination d, batchNamed_eq_ok hnamed, ?_⟩
  intro batch written
  have hfeeds : written.count '\n' = destination.preambleLines + batch.size +
      profile.breaks destination batch.size '\n' := by
    rw [count_extend (Or.inl rfl) h hclean, lineEnds, if_pos rfl, Nat.mul_one]
  have hreturns : written.count '\r' = profile.breaks destination batch.size '\r' := by
    rw [count_extend (Or.inr rfl) h hclean, lineEnds, if_neg (by decide), Nat.mul_zero,
      Nat.zero_add]
  refine ⟨hfeeds, hreturns, ?_⟩
  rw [keepsLines_iff, hfeeds, hreturns]
  omega

/-- A profile with the name of an application in two lines. -/
def twoLineName : Profile :=
  { appName := "Cover\r\nApp" }

/-- A profile with a pattern that ends with a line feed. -/
def patternWithFeed : Profile :=
  { displayDateFormat := "%m/%d/%Y%n" }

theorem resolve_twoLineName :
    twoLineName.resolve = .ok ⟨"Cover\r\nApp", .calendarYear, .standard⟩ :=
  rfl

theorem resolve_patternWithFeed :
    patternWithFeed.resolve = .ok ⟨"CoverApp", .calendarYear,
      ⟨"%m/%d/%Y%n", (isSome_render?_iff _ _).mpr (by decide)⟩⟩ :=
  rfl

/-- A journal of two rows shows the name of the application in two lines. -/
theorem count_render_twoLineName :
    (∀ t ∈ Sample.mixedSet, t.Unbroken) ∧
      ∃ opened, (⟨"Cover\r\nApp", .calendarYear, .standard⟩ : ResolvedProfile).batchNamed " GL "
          Sample.runDate = .ok opened ∧
        let written := (opened.extend Sample.mixedSet).1.render.text.toList
        written.count '\n' = 3 + 2 + 1 ∧ written.count '\r' = 1 := by
  have hclean : ∀ t ∈ Sample.mixedSet, t.Unbroken := by decide
  have hnamed : Destination.parse " GL " = .ok .generalLedger := by decide +kernel
  obtain ⟨opened, hopened, hfeeds, hreturns, -⟩ :=
    count_render resolve_twoLineName hnamed Sample.runDate hclean
  have hsize : (opened.extend Sample.mixedSet).1.size = 2 := by
    rw [batchNamed_eq_ok hnamed, Except.ok.injEq] at hopened
    rw [← hopened]
    decide
  rw [hsize] at hfeeds hreturns
  exact ⟨hclean, opened, hopened, hfeeds.trans (by decide), hreturns.trans (by decide)⟩

/-- **Accepted profiles can break lines**: the name of the application that of the heading of a
journal without rows, and the pattern that of the only row of a statement. -/
theorem accepted_profiles_break_lines :
    let d := Sample.runDate
    let t := Sample.householdPremium
    t.Unbroken ∧
      (∃ resolved opened, twoLineName.resolve = .ok resolved ∧
        resolved.batchNamed "gl" d = .ok opened ∧
        let batch := (opened.extend []).1
        let written := batch.render.text.toList
        ¬ (written.count '\n' = Destination.generalLedger.preambleLines + batch.size ∧
          written.count '\r' = 0)) ∧
      ∃ resolved opened, patternWithFeed.resolve = .ok resolved ∧
        resolved.batchNamed "statement" d = .ok opened ∧
        let batch := (opened.extend [t]).1
        let written := batch.render.text.toList
        ¬ (written.count '\n' = Destination.policyholderStatement.preambleLines + batch.size ∧
          written.count '\r' = 0) := by
  intro d t
  have hjournal : Destination.parse "gl" = .ok .generalLedger := by decide +kernel
  have hstatement : Destination.parse "statement" = .ok .policyholderStatement := by
    decide +kernel
  have hclean : t.Unbroken := by decide
  refine ⟨hclean, ⟨_, _, resolve_twoLineName, batchNamed_eq_ok hjournal, ?_⟩,
    _, _, resolve_patternWithFeed, batchNamed_eq_ok hstatement, ?_⟩
  · intro batch written h
    have hfeeds : written.count '\n' =
        (Destination.generalLedger.preambleLines + batch.size) * lineEnds '\n' +
          twoLineName.breaks .generalLedger batch.size '\n' :=
      count_extend (Or.inl rfl) resolve_twoLineName fun _ ht => absurd ht List.not_mem_nil
    rw [hfeeds] at h
    revert h
    decide
  · intro batch written h
    have hfeeds : written.count '\n' =
        (Destination.policyholderStatement.preambleLines + batch.size) * lineEnds '\n' +
          patternWithFeed.breaks .policyholderStatement batch.size '\n' :=
      count_extend (Or.inl rfl) resolve_patternWithFeed
        fun _ ht => List.mem_singleton.mp ht ▸ hclean
    rw [hfeeds] at h
    revert h
    decide

end Profile

end Posting
