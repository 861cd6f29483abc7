import Posting.Payload

/-! # Texts taken apart

What was put together is found again, as long as the pieces do not hold what stands between them.

* `split_intercalate`: the parts with a separator between them.
* `HasLines.lineList`: the lines with a line feed behind each.
* `stripQuotes_quoted` and `stripQuotes_bare`: a text that has no quote at its ends (`Unquoted`).
* `skipBlanks_append` and `exists_blanks`: a text behind blanks. -/

namespace Posting

namespace Text

/-! ### Blanks -/

/-- A run of characters that are all blank. -/
def Blanks (cs : List Char) : Prop :=
  ∀ c ∈ cs, isBlank c = true

theorem skipBlanks_append {blanks : List Char} (h : Blanks blanks) (cs : List Char) :
    skipBlanks (blanks ++ cs) = skipBlanks cs :=
  List.dropWhile_append_of_pos h

theorem exists_blanks (cs : List Char) :
    ∃ blanks, Blanks blanks ∧ cs = blanks ++ skipBlanks cs :=
  ⟨cs.takeWhile isBlank, List.all_eq_true.mp List.all_takeWhile,
    List.takeWhile_append_dropWhile.symm⟩

/-! ### Parts -/

theorem split_eq_splitOn (separator : Char) (cs : List Char) :
    split separator cs = cs.splitOn separator := by
  induction cs with
  | nil => rw [List.splitOn_nil, split]
  | cons c rest ih =>
      rw [List.splitOn_cons_eq_if_modifyHead, split, ih]
      by_cases hc : c = separator
      · rw [if_pos hc, if_pos (beq_iff_eq.mpr hc)]
      · rw [if_neg hc, if_neg (mt beq_iff_eq.mp hc)]
        cases hparts : rest.splitOn separator with
        | nil => exact absurd hparts (List.splitOn_ne_nil separator rest)
        | cons part parts => rfl

theorem split_append_cons (separator : Char) (front back : List Char) :
    split separator (front ++ separator :: back) = split separator front ++ split separator back := by
  rw [split_eq_splitOn, split_eq_splitOn, split_eq_splitOn]
  exact List.splitOnP_append_cons _ _ (beq_self_eq_true separator)

theorem intercalate_split (separator : Char) (cs : List Char) :
    [separator].intercalate (split separator cs) = cs := by
  rw [split_eq_splitOn, List.intercalate_splitOn]

/-- **Parts are found again** if none of them holds the separator. -/
theorem split_intercalate {separator : Char} {parts : List (List Char)} (hne : parts ≠ [])
    (h : ∀ part ∈ parts, separator ∉ part) :
    split separator ([separator].intercalate parts) = parts := by
  rw [split_eq_splitOn, List.splitOn_intercalate separator h hne]

theorem not_mem_intercalate {separator c : Char} (hc : c ≠ separator) {parts : List (List Char)}
    (h : ∀ part ∈ parts, c ∉ part) : c ∉ [separator].intercalate parts := by
  induction parts with
  | nil => exact List.not_mem_nil
  | cons part parts ih =>
      have hpart := h part List.mem_cons_self
      have hrest := ih fun other hother => h other (List.mem_cons_of_mem part hother)
      cases parts with
      | nil =>
          rw [List.intercalate_singleton]
          exact hpart
      | cons next parts =>
          rw [List.intercalate_cons_cons, List.mem_append, List.mem_append, List.mem_singleton,
            not_or, not_or]
          exact ⟨⟨hpart, hc⟩, hrest⟩

/-! ### Lines -/

/-- A text that is one line without its end: no line feed in it, and no carriage return that would
count to the end. -/
structure OneLine (line : List Char) : Prop where
  noFeed : '\n' ∉ line
  noReturn : line.getLast? ≠ some '\r'

theorem lineList_append {line : List Char} (h : '\n' ∉ line) (read rest : List Char) :
    lineList read (line ++ '\n' :: rest) =
      dropReturn (read.reverse ++ line) :: lineList [] rest := by
  induction line generalizing read with
  | nil => rw [List.nil_append, List.append_nil, lineList]
  | cons c line ih =>
      rw [List.mem_cons, not_or] at h
      rw [List.cons_append, lineList, ih h.2, List.reverse_cons, List.append_assoc,
        List.singleton_append]
      rintro rfl
      exact h.1 rfl

/-- A text that consists of lines, each with its end. -/
structure HasLines (cs : List Char) (list : List (List Char)) : Prop where
  eq : cs = list.flatMap (· ++ ['\n'])
  oneLine : ∀ line ∈ list, OneLine line

theorem OneLine.hasLines {line : List Char} (h : OneLine line) :
    HasLines (line ++ ['\n']) [line] := by
  refine ⟨?_, List.forall_mem_singleton.mpr h⟩
  rw [List.flatMap_singleton]

theorem HasLines.append {front back : List Char} {first second : List (List Char)}
    (hfront : HasLines front first) (hback : HasLines back second) :
    HasLines (front ++ back) (first ++ second) := by
  refine ⟨?_, List.forall_mem_append.mpr ⟨hfront.oneLine, hback.oneLine⟩⟩
  rw [List.flatMap_append, ← hfront.eq, ← hback.eq]

/-- **Lines are found again** if each of them is one. -/
theorem HasLines.lineList {cs : List Char} {list : List (List Char)} (h : HasLines cs list) :
    Text.lineList [] cs = list := by
  obtain ⟨rfl, hlines⟩ := h
  induction list with
  | nil => rfl
  | cons line list ih =>
      have hline := hlines line List.mem_cons_self
      rw [List.flatMap_cons, List.append_assoc, List.singleton_append,
        lineList_append hline.noFeed, List.reverse_nil, List.nil_append, dropReturn,
        if_neg hline.noReturn,
        ih fun other hother => hlines other (List.mem_cons_of_mem line hother)]

end Text

/-! ### Quotes -/

namespace Row

/-- A text with no quote at its two ends. -/
structure Unquoted (cs : List Char) : Prop where
  head : cs.head? ≠ some '"'
  last : cs.getLast? ≠ some '"'

theorem dropWhile_quote {cs : List Char} (h : cs.head? ≠ some '"') :
    cs.dropWhile (· == '"') = cs := by
  cases cs with
  | nil => rfl
  | cons c rest =>
      rw [List.dropWhile_cons_of_neg]
      rw [beq_iff_eq]
      rintro rfl
      exact h rfl

theorem stripQuotes_bare {cs : List Char} (h : Unquoted cs) : stripQuotes cs = cs := by
  rw [stripQuotes, dropWhile_quote h.head, dropWhile_quote, List.reverse_reverse]
  rw [List.head?_reverse]
  exact h.last

/-- **A text is found again between its quotes** if it has none at its own ends. -/
theorem stripQuotes_quoted {cs : List Char} (h : Unquoted cs) :
    stripQuotes ('"' :: (cs ++ ['"'])) = cs := by
  have hskip (rest : List Char) :
      ('"' :: rest).dropWhile (· == '"') = rest.dropWhile (· == '"') := rfl
  cases cs with
  | nil => rfl
  | cons c rest =>
      have hopen : ((c :: rest) ++ ['"']).head? ≠ some '"' := h.head
      have hclose : (c :: rest).reverse.head? ≠ some '"' := by
        rw [List.head?_reverse]
        exact h.last
      rw [stripQuotes, hskip, dropWhile_quote hopen,
        List.reverse_append, List.reverse_singleton, List.singleton_append,
        hskip, dropWhile_quote hclose, List.reverse_reverse]

end Row

end Posting
