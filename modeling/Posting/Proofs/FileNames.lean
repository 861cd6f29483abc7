import Posting.Profile
import Posting.Proofs.Digits
import Posting.Proofs.FileTrees

/-! # Names of files

The name of a batch file tells its destination, its year and its period (`fileName_inj`), and under
one profile the month (`fileName_eq_iff`), so that batches with one name are stamped alike
(`batch_eq_of_fileName`).  It names something in whatever directory it is put (`isName_fileName`);
paths that differ in such a name only are `Siblings`. -/

namespace Posting

open Calendar Text

/-! ### Integers in decimal -/

namespace Text

theorem digits_injective : Function.Injective digits :=
  fun m n h => by rw [← readDigits_digits m, h, readDigits_digits]

theorem padded_injective (width : Nat) : Function.Injective (padded width) :=
  fun m n h => by rw [← readDigits_padded width m, h, readDigits_padded]

theorem mem_integer {n : Int} {c : Char} (h : c ∈ integer n) : c = '-' ∨ c.isDigit = true := by
  unfold integer at h
  split at h
  · exact (List.mem_cons.mp h).imp_right (allDigits_digits _ c)
  · exact Or.inr (allDigits_digits _ c h)

theorem integer_injective : Function.Injective integer := by
  intro m n h
  unfold integer at h
  have hsign (k l : Nat) : '-' :: digits k ≠ digits l := by
    intro heq
    exact (allDigits_digits l).not_mem (by decide) (heq ▸ List.mem_cons_self)
  split at h
  · split at h
    · have := digits_injective (List.cons.inj h).2
      omega
    · exact absurd h (hsign _ _)
  · split at h
    · exact absurd h.symm (hsign _ _)
    · have := digits_injective h
      omega

end Text

/-! ### Batch files -/

namespace Destination

theorem toList_fileName (destination : Destination) (year : Int) (period : Nat) :
    (destination.fileName year period).toList =
      destination.name.toList ++ '_' :: (integer year ++ '_' :: (padded 2 period ++ ".csv".toList)) := by
  simp [fileName, String.toList_append]

theorem head?_fileName (destination : Destination) (year : Int) (period : Nat) :
    (destination.fileName year period).toList.head? = destination.name.toList.head? := by
  rw [toList_fileName, List.head?_append_of_ne_nil]
  cases destination <;> decide

theorem eq_of_head?_name {destination other : Destination}
    (h : destination.name.toList.head? = other.name.toList.head?) : destination = other := by
  cases destination <;> cases other <;> first | rfl | exact absurd h (by decide)

theorem mem_fileName {destination : Destination} {year : Int} {period : Nat} {c : Char}
    (h : c ∈ (destination.fileName year period).toList) :
    c.isAlphanum = true ∨ c = '_' ∨ c = '-' ∨ c = '.' := by
  have hdigit (hc : c.isDigit = true) : c.isAlphanum = true := by simp [Char.isAlphanum, hc]
  have hname : destination.name.toList.all (fun c => c.isAlphanum || c == '_') = true := by
    cases destination <;> decide
  have hsuffix : ".csv".toList.all (fun c => c.isAlphanum || c == '.') = true := by decide
  simp only [List.all_eq_true, Bool.or_eq_true, beq_iff_eq] at hname hsuffix
  rw [toList_fileName, List.mem_append, List.mem_cons, List.mem_append, List.mem_cons,
    List.mem_append] at h
  rcases h with h | rfl | h | rfl | h | h
  · exact (hname c h).imp_right Or.inl
  · exact Or.inr (Or.inl rfl)
  · rcases mem_integer h with rfl | h
    · exact Or.inr (Or.inr (Or.inl rfl))
    · exact Or.inl (hdigit h)
  · exact Or.inr (Or.inl rfl)
  · exact Or.inl (hdigit (allDigits_padded 2 period c h))
  · exact (hsuffix c h).imp_right fun hc => Or.inr (Or.inr hc)

theorem fileName_inj {destination other : Destination} {year year' : Int} {period period' : Nat}
    (h : destination.fileName year period = other.fileName year' period') :
    destination = other ∧ year = year' ∧ period = period' := by
  have hlist := congrArg String.toList h
  have hhead := congrArg List.head? hlist
  rw [head?_fileName, head?_fileName] at hhead
  obtain rfl := eq_of_head?_name hhead
  rw [toList_fileName, toList_fileName] at hlist
  have hyear (n : Int) : '_' ∉ integer n := by
    intro hmem
    rcases mem_integer hmem with h | h <;> revert h <;> decide
  have hperiod (n : Nat) : '_' ∉ padded 2 n ++ ".csv".toList := by
    rw [List.mem_append, not_or]
    exact ⟨(allDigits_padded 2 n).not_mem (by decide), by decide⟩
  have hrest := (List.cons.inj (List.append_cancel_left hlist)).2
  obtain ⟨hyears, -, hperiods⟩ :=
    (List.append_cons_inj_of_notMem (hyear year) (hperiod period)).mp hrest
  exact ⟨rfl, integer_injective hyears,
    padded_injective 2 (List.append_cancel_right hperiods)⟩

theorem fileName_injective :
    Function.Injective fun key : Destination × Int × Nat => key.1.fileName key.2.1 key.2.2 := by
  rintro ⟨destination, year, period⟩ ⟨other, year', period'⟩ h
  obtain ⟨rfl, rfl, rfl⟩ := fileName_inj h
  rfl

end Destination

theorem Date.month_eq_of_period {calendar : FiscalCalendar} {d d' : Date}
    (h : calendar.period d = calendar.period d') : d.month = d'.month := by
  have := d.month_pos
  have := d.month_le
  have := d'.month_pos
  have := d'.month_le
  have := calendar.start_pos
  have := calendar.start_le
  unfold FiscalCalendar.period fiscalPeriod at h
  omega

namespace ResolvedProfile

variable (profile : ResolvedProfile) (d d' : Date)

/-- The fiscal periods of a profile are the months under other numbers. -/
theorem period_eq_iff :
    profile.calendar.period d = profile.calendar.period d' ↔ d.month = d'.month := by
  constructor
  · exact Date.month_eq_of_period
  · intro hmonth
    rw [FiscalCalendar.period, FiscalCalendar.period, hmonth]

theorem heading_eq_iff :
    profile.heading d = profile.heading d' ↔ d.year = d'.year ∧ d.month = d'.month := by
  constructor
  · intro h
    have hperiod := congrArg Heading.period h
    exact ⟨congrArg Heading.year h, (profile.period_eq_iff d d').mp hperiod⟩
  · rintro ⟨hyear, hmonth⟩
    have hperiod := (profile.period_eq_iff d d').mpr hmonth
    have hdescription : d.monthAndYear = d'.monthAndYear := by
      rw [Date.monthAndYear, Date.monthAndYear, hyear, hmonth]
    rw [heading, heading, hperiod, hyear, hdescription]

theorem fileName_batch (destination : Destination) :
    (profile.batch destination d).fileName =
      destination.fileName d.year (profile.calendar.period d) := by
  cases destination <;> rfl

/-- **File names tell the destination, the year and the month.** -/
theorem fileName_eq_iff (destination other : Destination) :
    (profile.batch destination d).fileName = (profile.batch other d').fileName ↔
      destination = other ∧ d.year = d'.year ∧ d.month = d'.month := by
  rw [fileName_batch, fileName_batch, ← period_eq_iff]
  constructor
  · exact Destination.fileName_inj
  · rintro ⟨rfl, hyear, hperiod⟩
    rw [hyear, hperiod]

/-- **Batches of a profile whose files have one name are stamped alike.** -/
theorem batch_eq_of_fileName {profile : ResolvedProfile} {destination other : Destination}
    {d d' : Date}
    (h : destination.fileName d.year (profile.calendar.period d) =
      other.fileName d'.year (profile.calendar.period d')) :
    profile.batch destination d = profile.batch other d' := by
  rw [← fileName_batch, ← fileName_batch, fileName_eq_iff] at h
  obtain ⟨rfl, hmonth⟩ := h
  rw [batch, batch, (profile.heading_eq_iff d d').mpr hmonth]

end ResolvedProfile

namespace Files

/-! ### Names in a directory -/

/-- A text that names something in a directory. -/
structure IsName (name : String) : Prop where
  noSlash : '/' ∉ name.toList
  ne_empty : name ≠ ""
  ne_dot : name ≠ "."
  ne_dots : name ≠ ".."

theorem isName_fileName (destination : Destination) (year : Int) (period : Nat) :
    IsName (destination.fileName year period) := by
  have hhead := destination.head?_fileName year period
  have hne (name : String) (hname : name.toList.head? ≠ destination.name.toList.head?) :
      destination.fileName year period ≠ name := by
    rintro h
    exact hname (by rw [← hhead, h])
  refine ⟨?_, hne _ ?_, hne _ ?_, hne _ ?_⟩
  · intro hslash
    have := Destination.mem_fileName hslash
    revert this
    decide
  all_goals cases destination <;> decide

theorem IsName.toList_ne_nil {name : String} (h : IsName name) : name.toList ≠ [] := by
  simpa using h.ne_empty

theorem IsName.toList_ne_dot {name : String} (h : IsName name) : name.toList ≠ ['.'] :=
  fun heq => h.ne_dot (String.toList_injective (heq.trans (by decide)))

theorem IsName.split {name : String} (h : IsName name) : split '/' name.toList = [name.toList] := by
  have hslash : ∀ part ∈ [name.toList], '/' ∉ part := by simpa using h.noSlash
  have hparts := split_intercalate (List.cons_ne_nil name.toList []) hslash
  rwa [List.intercalate_singleton] at hparts

theorem IsName.segments {name : String} (h : IsName name) : segments name.toList = [name] := by
  rw [Files.segments, h.split, List.filter_cons_of_pos (by simpa using h.ne_empty), List.filter_nil,
    List.map_singleton, String.ofList_toList]

theorem IsName.head?_ne {name : String} (h : IsName name) : name.toList.head? ≠ some '/' :=
  fun hhead => h.noSlash (List.mem_of_mem_head? hhead)

theorem toList_join (directory : String) : (∀ name, join directory name = name) ∨
    ∃ upper, ∀ name, (join directory name).toList = upper ++ '/' :: name.toList := by
  unfold join
  by_cases hempty : directory = ""
  · exact Or.inl fun name => by simp [hempty]
  refine Or.inr ?_
  by_cases hslash : directory.toList.getLast? = some '/'
  · obtain ⟨upper, hupper⟩ := List.getLast?_eq_some_iff.mp hslash
    exact ⟨upper, fun name => by simp [hupper]⟩
  · exact ⟨directory.toList, fun name => by simp [hempty, hslash]⟩

/-- A path that ends in a name of its own. -/
structure EndsIn (path name : String) : Prop where
  isName : IsName name
  last : (segments path.toList).getLast? = some name
  noSlash : path.toList.getLast? ≠ some '/'

theorem endsIn_join (directory : String) {name : String} (h : IsName name) :
    EndsIn (join directory name) name := by
  have hlast : name.toList.getLast? ≠ some '/' :=
    fun hlast => h.noSlash (List.mem_of_getLast? hlast)
  rcases toList_join directory with hjoin | ⟨upper, hjoin⟩
  · rw [hjoin]
    exact ⟨h, by rw [h.segments]; rfl, hlast⟩
  · refine ⟨h, ?_, ?_⟩
    · rw [hjoin, segments_append_cons, h.segments, List.getLast?_concat]
    · rwa [hjoin, List.getLast?_append_of_ne_nil _ (List.cons_ne_nil _ _),
        List.getLast?_cons_of_ne_nil h.toList_ne_nil]

/-! ### Siblings -/

/-- Two paths that differ in their last segment only. -/
structure Siblings (path other : String) : Prop where
  parent : parent? path = parent? other
  start : FileTree.start path = FileTree.start other
  front : (segments path.toList).dropLast = (segments other.toList).dropLast

theorem Siblings.symm {path other : String} (h : Siblings path other) : Siblings other path :=
  ⟨h.parent.symm, h.start.symm, h.front.symm⟩

theorem Siblings.uppers {path other : String} (h : Siblings path other) :
    uppers path = uppers other := by
  rw [Files.uppers, h.parent, Files.uppers]

/-- The path of the parts in front of a name. -/
def upperOf : List (List Char) → String
  | [] :: parts => String.ofList ('/' :: slashed (dropUnnamed parts))
  | ['.'] :: parts => String.ofList (slashed (['.'] :: dropUnnamed parts))
  | parts => String.ofList (slashed (dropUnnamed parts))

theorem parentParts?_concat {name : String} (h : IsName name) (front : List (List Char)) :
    parentParts? (front ++ [name.toList]) = some (dropUnnamed front) := by
  have hnamed : ¬ (name.toList == [] || name.toList == ['.']) = true := by
    simp [h.toList_ne_nil, h.toList_ne_dot]
  have hkept : dropUnnamed (front ++ [name.toList]) = front ++ [name.toList] :=
    List.rdropWhile_concat_neg _ _ _ hnamed
  unfold parentParts?
  rw [hkept]
  split
  · next hnil => simp at hnil
  · rw [List.dropLast_concat]

theorem parent?_of_split {path name : String} (hname : IsName name) (front : List (List Char))
    (h : split '/' path.toList = front ++ [name.toList]) : parent? path = some (upperOf front) := by
  rw [parent?_eq, h]
  rcases front with _ | ⟨first, parts⟩
  · split
    · next heq => exact absurd (List.cons.inj heq).1 hname.toList_ne_nil
    · next heq =>
        exact absurd (List.cons.inj heq).1 hname.toList_ne_dot
    · exact congrArg (Option.map _) (parentParts?_concat hname [])
  by_cases hroot : first = []
  · subst hroot
    have hbody := parentParts?_concat hname parts
    rcases parts with _ | ⟨second, parts⟩ <;> exact congrArg (Option.map _) hbody
  by_cases hdot : first = ['.']
  · subst hdot
    rw [List.cons_append]
    split
    · next heq => exact absurd (List.cons.inj heq).1 hroot
    · next heq =>
        obtain rfl := (List.cons.inj heq).2
        rw [parentParts?_concat hname]
        rfl
    · next hother => exact absurd rfl (hother _)
  · split
    · next heq => exact absurd (List.cons.inj heq).1 hroot
    · next heq => exact absurd (List.cons.inj heq).1 hdot
    · rw [parentParts?_concat hname, upperOf]
      · rfl
      · rintro _ ⟨⟩
        exact hroot rfl
      · rintro _ ⟨⟩
        exact hdot rfl

theorem siblings_join (directory : String) {name other : String} (h : IsName name)
    (h' : IsName other) : Siblings (join directory name) (join directory other) := by
  rcases toList_join directory with hjoin | ⟨upper, hjoin⟩
  · rw [hjoin, hjoin]
    refine ⟨?_, ?_, ?_⟩
    · rw [parent?_of_split h [] h.split, parent?_of_split h' [] h'.split]
    · rw [FileTree.start, if_neg h.head?_ne, FileTree.start, if_neg h'.head?_ne]
    · rw [h.segments, h'.segments]
      rfl
  · refine ⟨?_, ?_, ?_⟩
    · have hsplit {name : String} (hname : IsName name) :
          split '/' (join directory name).toList = split '/' upper ++ [name.toList] := by
        rw [hjoin, split_append_cons, hname.split]
      rw [parent?_of_split h _ (hsplit h), parent?_of_split h' _ (hsplit h')]
    · rw [FileTree.start, FileTree.start, hjoin, hjoin]
      cases upper <;> rfl
    · rw [hjoin, hjoin, segments_append_cons, segments_append_cons, h.segments, h'.segments,
        List.dropLast_concat, List.dropLast_concat]

end Files

end Posting
