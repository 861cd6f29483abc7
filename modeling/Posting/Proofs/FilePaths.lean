import Mathlib.Data.List.Chain
import Mathlib.Data.List.DropRight
import Posting.Files.Path
import Posting.Proofs.TextPieces

/-! # Paths and the paths above them

The segments of a path are the names between its slashes.  A path lies above another one
(`Above`) if the other one goes on behind it and names something there.

* `above_of_parent?`: the parent of a path lies above it, unless it is empty.
* `above_of_mem_uppers`: so do all paths of `uppers`, which are the directories that a file at the
  path needs, and each of them lies above the one before it (`isChain_uppers`). -/

namespace Posting.Files

open Text

/-! ### Segments -/

/-- The names between the slashes of a path. -/
def segments (cs : List Char) : List String :=
  ((split '/' cs).filter (· != [])).map String.ofList

theorem segments_append_cons (front back : List Char) :
    segments (front ++ '/' :: back) = segments front ++ segments back := by
  rw [segments, split_append_cons, List.filter_append, List.map_append]
  rfl

theorem segments_slashed_ne_nil {parts : List (List Char)} (hslash : ∀ part ∈ parts, '/' ∉ part)
    {part : List Char} (hpart : part ∈ parts) (hne : part ≠ []) :
    segments (slashed parts) ≠ [] := by
  rw [segments, slashed, split_intercalate (List.ne_nil_of_mem hpart) hslash, ne_eq,
    List.map_eq_nil_iff]
  exact List.ne_nil_of_mem (List.mem_filter.mpr ⟨hpart, bne_iff_ne.mpr hne⟩)

theorem slashed_cons {part : List Char} {parts : List (List Char)} (hne : parts ≠ []) :
    slashed (part :: parts) = part ++ '/' :: slashed parts := by
  rw [slashed, List.intercalate_cons_of_ne_nil hne, List.append_assoc, List.singleton_append,
    slashed]

theorem slashed_singleton (part : List Char) : slashed [part] = part :=
  List.intercalate_singleton

theorem slashed_append {front back : List (List Char)} (hfront : front ≠ []) (hback : back ≠ []) :
    slashed (front ++ back) = slashed front ++ '/' :: slashed back := by
  induction front with
  | nil => exact absurd rfl hfront
  | cons part front ih =>
      rw [List.cons_append, slashed_cons (List.append_ne_nil_of_right_ne_nil front hback)]
      by_cases hrest : front = []
      · rw [hrest, List.nil_append, slashed_singleton]
      · rw [ih hrest, slashed_cons hrest, List.append_assoc, List.cons_append]

theorem slashed_split (cs : List Char) : slashed (split '/' cs) = cs :=
  intercalate_split '/' cs

theorem slash_not_mem_of_mem_split {cs part : List Char} (h : part ∈ split '/' cs) :
    '/' ∉ part := by
  induction cs generalizing part with
  | nil =>
      rw [split, List.mem_singleton] at h
      rw [h]
      exact List.not_mem_nil
  | cons c rest ih =>
      rw [split] at h
      split at h
      · rcases List.mem_cons.mp h with rfl | h
        · exact List.not_mem_nil
        · exact ih h
      · next hc =>
          split at h
          · rw [List.mem_singleton] at h
            rw [h, List.mem_singleton]
            exact fun heq => hc heq.symm
          · next first parts hparts =>
              rcases List.mem_cons.mp h with rfl | h
              · rw [List.mem_cons, not_or]
                exact ⟨fun heq => hc heq.symm, ih (hparts ▸ List.mem_cons_self)⟩
              · exact ih (hparts ▸ List.mem_cons_of_mem first h)

/-! ### Parents -/

theorem exists_dropUnnamed_append (parts : List (List Char)) :
    ∃ unnamed, parts = dropUnnamed parts ++ unnamed := by
  obtain ⟨unnamed, h⟩ := List.rdropWhile_prefix (fun part => part == [] || part == ['.']) (l := parts)
  exact ⟨unnamed, h.symm⟩

theorem getLast_dropUnnamed {parts : List (List Char)} (h : dropUnnamed parts ≠ []) :
    (dropUnnamed parts).getLast h ≠ [] := by
  have hlast := List.rdropWhile_last_not (fun part => part == [] || part == ['.']) parts h
  intro hnil
  exact hlast (by rw [show (parts.rdropWhile _).getLast h = [] from hnil]; rfl)

/-- The parts of the parent of a path with the given parts, if it has one. -/
def parentParts? (parts : List (List Char)) : Option (List (List Char)) :=
  match dropUnnamed parts with
  | [] => none
  | named => some (dropUnnamed named.dropLast)

/-- The parts of a path are those of its parent and others, of which one names something. -/
theorem exists_append_of_parentParts? {parts parents : List (List Char)}
    (h : parentParts? parts = some parents) :
    ∃ rest, parts = parents ++ rest ∧ ∃ part ∈ rest, part ≠ [] := by
  unfold parentParts? at h
  split at h
  · cases h
  · next hne =>
      cases h
      obtain ⟨after, hafter⟩ := exists_dropUnnamed_append parts
      obtain ⟨before, hbefore⟩ := exists_dropUnnamed_append (dropUnnamed parts).dropLast
      have hnamed : dropUnnamed parts ≠ [] := hne
      refine ⟨before ++ (dropUnnamed parts).getLast hnamed :: after, ?_, _,
        List.mem_append_right _ List.mem_cons_self, getLast_dropUnnamed hnamed⟩
      calc parts = dropUnnamed parts ++ after := hafter
        _ = (dropUnnamed parts).dropLast ++ [(dropUnnamed parts).getLast hnamed] ++ after := by
            rw [List.dropLast_append_getLast]
        _ = _ := by
            rw [List.append_assoc, List.singleton_append, ← List.append_assoc, ← hbefore]

/-- A path at the front of another one, which names something behind it. -/
structure Above (upper path : String) : Prop where
  ne_empty : upper ≠ ""
  text : upper.toList <+: path.toList
  names : ∃ below, below ≠ [] ∧ segments path.toList = segments upper.toList ++ below

theorem Above.trans {top upper path : String} (h : Above top upper) (h' : Above upper path) :
    Above top path := by
  obtain ⟨below, hne, hsegments⟩ := h.names
  obtain ⟨below', -, hsegments'⟩ := h'.names
  refine ⟨h.ne_empty, h.text.trans h'.text, below ++ below', ?_, ?_⟩
  · exact List.append_ne_nil_of_left_ne_nil hne below'
  · rw [hsegments', hsegments, List.append_assoc]

theorem Above.below_ne_empty {path upper : String} (h : Above upper path) : path ≠ "" := by
  rintro rfl
  exact h.ne_empty (by simpa using h.text)

theorem above_slashed {path : String} {parents rest : List (List Char)}
    (htext : path.toList = slashed (parents ++ rest)) (hslash : ∀ part ∈ rest, '/' ∉ part)
    (hrest : ∃ part ∈ rest, part ≠ []) (hne : slashed parents ≠ []) :
    Above (String.ofList (slashed parents)) path := by
  obtain ⟨part, hpart, hpartne⟩ := hrest
  have hparents : parents ≠ [] := by
    rintro rfl
    exact hne rfl
  have htext' := htext.trans (slashed_append hparents (List.ne_nil_of_mem hpart))
  refine ⟨?_, ?_, segments (slashed rest), segments_slashed_ne_nil hslash hpart hpartne, ?_⟩
  · rw [ne_eq, ← String.toList_inj, String.toList_ofList]
    exact hne
  · rw [String.toList_ofList, htext']
    exact List.prefix_append _ _
  · rw [String.toList_ofList, htext', segments_append_cons]

theorem parent?_eq (path : String) : parent? path =
    match split '/' path.toList with
    | [] :: first :: parts =>
      (parentParts? (first :: parts)).map (fun parts => String.ofList ('/' :: slashed parts))
    | ['.'] :: parts =>
      match parentParts? parts with
      | none => some ""
      | some parts => some (String.ofList (slashed (['.'] :: parts)))
    | parts => (parentParts? parts).map (fun parts => String.ofList (slashed parts)) :=
  rfl

theorem above_of_parent? {path parent : String} (h : parent? path = some parent)
    (hne : parent ≠ "") : Above parent path := by
  have htext : path.toList = slashed (split '/' path.toList) := (slashed_split _).symm
  have hslash : ∀ part ∈ split '/' path.toList, '/' ∉ part :=
    fun part hpart => slash_not_mem_of_mem_split hpart
  rw [parent?_eq] at h
  split at h
  · -- an absolute path: the root may be all that is left
    next first parts hparts =>
      rw [hparts] at htext hslash
      obtain ⟨parents, hparents, rfl⟩ := Option.map_eq_some_iff.mp h
      obtain ⟨rest, hrest, hnamed⟩ := exists_append_of_parentParts? hparents
      rw [hrest] at htext hslash
      have hslash' : ∀ part ∈ rest, '/' ∉ part := fun part hpart =>
        hslash part (List.mem_cons_of_mem _ (List.mem_append_right parents hpart))
      by_cases hroot : parents = []
      · obtain ⟨part, hpart, hpartne⟩ := hnamed
        rw [hroot, List.nil_append, slashed_cons (List.ne_nil_of_mem hpart)] at htext
        subst hroot
        refine ⟨hne, ?_, segments (slashed rest),
          segments_slashed_ne_nil hslash' hpart hpartne, ?_⟩
        · rw [htext]
          exact List.prefix_append ['/'] _
        · rw [htext, segments_append_cons]
          rfl
      · have hparent : '/' :: slashed parents = slashed ([] :: parents) := by
          rw [slashed_cons hroot, List.nil_append]
        rw [hparent]
        refine above_slashed htext hslash' hnamed ?_
        rw [← hparent]
        exact List.cons_ne_nil _ _
  · next parts hparts =>
      rw [hparts] at htext hslash
      split at h
      · exact absurd (Option.some.inj h).symm hne
      · next parents hparents =>
          cases h
          obtain ⟨rest, rfl, hnamed⟩ := exists_append_of_parentParts? hparents
          refine above_slashed htext (fun part hpart => ?_) hnamed ?_
          · exact hslash part (List.mem_cons_of_mem _ (List.mem_append_right parents hpart))
          · exact fun hnil => hne (congrArg String.ofList hnil)
  · obtain ⟨parents, hparents, rfl⟩ := Option.map_eq_some_iff.mp h
    obtain ⟨rest, hrest, hnamed⟩ := exists_append_of_parentParts? hparents
    rw [hrest] at htext hslash
    refine above_slashed htext (fun part hpart => ?_) hnamed ?_
    · exact hslash part (List.mem_append_right parents hpart)
    · exact fun hnil => hne (congrArg String.ofList hnil)

/-! ### The paths above a path -/

theorem eq_or_above_of_mem_ancestors {upper path : String} (h : upper ∈ ancestors path) :
    upper = path ∨ Above upper path := by
  unfold ancestors at h
  generalize path.length + 1 = fuel at h
  induction fuel generalizing path with
  | zero => cases h
  | succ fuel ih =>
      rw [ancestorsWithin] at h
      split at h
      · cases h
      · next parent hparent =>
          rcases List.mem_cons.mp h with rfl | h
          · exact Or.inl rfl
          · have hne : parent ≠ "" := by
              rintro rfl
              cases fuel <;> cases h
            have habove := above_of_parent? hparent hne
            rcases ih h with rfl | hupper
            · exact Or.inr habove
            · exact Or.inr (hupper.trans habove)

/-- The paths above a path, the longest first: those of the directories that a file there needs. -/
def uppers (path : String) : List String :=
  match parent? path with
  | none => []
  | some parent => ancestors parent

theorem above_of_mem_uppers {upper path : String} (h : upper ∈ uppers path) : Above upper path := by
  unfold uppers at h
  split at h
  · cases h
  · next parent hparent =>
      have hne : parent ≠ "" := by
        rintro rfl
        cases h
      have habove := above_of_parent? hparent hne
      rcases eq_or_above_of_mem_ancestors h with rfl | hupper
      · exact habove
      · exact hupper.trans habove

theorem isChain_ancestors (path : String) :
    (ancestors path).IsChain (fun path upper => Above upper path) := by
  unfold ancestors
  generalize path.length + 1 = fuel
  induction fuel generalizing path with
  | zero => exact List.isChain_nil
  | succ fuel ih =>
      rw [ancestorsWithin]
      split
      · exact List.isChain_nil
      · next parent hparent =>
          refine List.isChain_cons.mpr ⟨fun upper hupper => ?_, ih parent⟩
          cases fuel with
          | zero => cases hupper
          | succ fuel =>
              rw [ancestorsWithin] at hupper
              split at hupper
              · cases hupper
              · next top htop =>
                  cases hupper
                  refine above_of_parent? hparent ?_
                  rintro rfl
                  cases htop

theorem isChain_uppers (path : String) :
    (uppers path).IsChain (fun path upper => Above upper path) := by
  unfold uppers
  split
  · exact List.isChain_nil
  · exact isChain_ancestors _

end Posting.Files
