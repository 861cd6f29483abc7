import Posting.Proofs.BatchFiles
import Posting.Proofs.FiscalPositions

/-! # Which profiles are accepted

A profile is looked through twice: its name and its month first, each of them whatever the other one
is, then the month once more by the calendar, and the pattern last.

* `ProfileFault.IsOf` is what can be wrong with a name and a month, and `Profile.mem_faults_iff` says
  that just what is wrong is reported.
* `Profile.resolve_of_faults_ne_nil` and `Profile.resolve_of_faults_eq_nil` are the two ways that the
  check goes.  A month that is not reported is one that the calendar takes, so that only the pattern
  is left to be refused.

`Profile.verdict` puts these together. -/

namespace Posting

open Calendar

/-! ### Faults -/

namespace ProfileFault

/-- The field of a profile that a fault is about. -/
def field : ProfileFault → String
  | .emptyAppName => "app_name"
  | .startMonthOutOfRange => "fiscal_start_month"

/-- What it means for a profile to have a fault. -/
def IsOf (profile : Profile) : ProfileFault → Prop
  | .emptyAppName => profile.appName = ""
  | .startMonthOutOfRange => ¬ (1 ≤ profile.fiscalStartMonth ∧ profile.fiscalStartMonth ≤ 12)

instance (profile : Profile) : (fault : ProfileFault) → Decidable (fault.IsOf profile)
  | .emptyAppName => inferInstanceAs (Decidable (profile.appName = ""))
  | .startMonthOutOfRange =>
    inferInstanceAs (Decidable (¬ (1 ≤ profile.fiscalStartMonth ∧ profile.fiscalStartMonth ≤ 12)))

/-- A line that is about a field: it begins with the name of the field. -/
def IsAbout (line field : String) : Prop :=
  ∃ rule, line = field ++ ": " ++ rule

/-- **What is said of a fault is about its field**, and about no field of another fault. -/
theorem isAbout_iff (fault other : ProfileFault) :
    IsAbout fault.message other.field ↔ fault = other := by
  have hown : ∀ fault : ProfileFault, IsAbout fault.message fault.field
    | .emptyAppName => ⟨"app name must not be empty", by decide +kernel⟩
    | .startMonthOutOfRange => ⟨"fiscal start month must be 1-12", by decide +kernel⟩
  constructor
  · rintro ⟨rule, hrule⟩
    -- the names of the two fields differ in their first character
    have hhead := congrArg (fun line => line.toList.head?) hrule
    cases fault <;> cases other <;> first | rfl | simp [message, field] at hhead
  · rintro rfl
    exact hown fault

end ProfileFault

namespace Profile

variable {profile : Profile}

/-! ### The name and the month -/

/-- **Just what is wrong is reported.** -/
theorem mem_faults_iff (fault : ProfileFault) :
    fault ∈ profile.faults ↔ fault.IsOf profile := by
  unfold faults
  rw [List.mem_append]
  cases fault with
  | emptyAppName => by_cases hname : profile.appName = "" <;> simp [ProfileFault.IsOf, hname]
  | startMonthOutOfRange =>
      rw [ProfileFault.IsOf]
      by_cases hmonth : 1 ≤ profile.fiscalStartMonth ∧ profile.fiscalStartMonth ≤ 12
      · simp [hmonth]
      · simp [hmonth]

theorem nodup_faults : profile.faults.Nodup := by
  unfold faults
  split <;> split <;> decide

theorem faults_eq_nil_iff : profile.faults = [] ↔ ∀ fault : ProfileFault, ¬ fault.IsOf profile := by
  rw [List.eq_nil_iff_forall_not_mem]
  exact forall_congr' fun fault => not_congr (mem_faults_iff fault)

/-! ### The two ways of the check -/

theorem resolve_of_faults_ne_nil (h : profile.faults ≠ []) :
    profile.resolve = .error (.invalidProfile profile.faults) := by
  unfold resolve
  split
  · contradiction
  · rfl

/-- **Where nothing is reported, only the pattern counts**: the calendar takes the month. -/
theorem resolve_of_faults_eq_nil (h : profile.faults = []) :
    ∃ calendar : FiscalCalendar, profile.resolve =
      ((DisplayFormat.ofPattern profile.displayDateFormat).mapError .calendar).map
        (fun format => ⟨profile.appName, calendar, format⟩) := by
  have hmonth : 1 ≤ profile.fiscalStartMonth ∧ profile.fiscalStartMonth ≤ 12 :=
    not_not.mp (faults_eq_nil_iff.mp h .startMonthOutOfRange)
  have hcalendar : FiscalCalendar.ofMonth profile.fiscalStartMonth =
      .ok ⟨profile.fiscalStartMonth, hmonth.1, hmonth.2⟩ := (FiscalCalendar.ofMonth_eq_ok_iff _).mpr rfl
  refine ⟨⟨profile.fiscalStartMonth, hmonth.1, hmonth.2⟩, ?_⟩
  unfold resolve
  rw [h, hcalendar]
  cases DisplayFormat.ofPattern profile.displayDateFormat <;> rfl

theorem eq_of_resolve_eq_error (h : profile.faults = []) {error : ExportError}
    (herror : profile.resolve = .error error) :
    error = .calendar (.invalidPattern profile.displayDateFormat) := by
  obtain ⟨calendar, hresolve⟩ := resolve_of_faults_eq_nil h
  rw [hresolve] at herror
  cases hformat : DisplayFormat.ofPattern profile.displayDateFormat with
  | error cause =>
      obtain ⟨-, rfl⟩ := (DisplayFormat.ofPattern_eq_error_iff _ _).mp hformat
      rw [hformat] at herror
      cases herror
      rfl
  | ok format =>
      rw [hformat] at herror
      cases herror

/-! ### Verdicts -/

/-- A profile of which every part can be used. -/
structure Usable (profile : Profile) : Prop where
  named : profile.appName ≠ ""
  month_pos : 1 ≤ profile.fiscalStartMonth
  month_le : profile.fiscalStartMonth ≤ 12
  pattern_ne : profile.displayDateFormat ≠ ""
  shows : ∃ d, (render? profile.displayDateFormat d).isSome

theorem usable_iff : profile.Usable ↔ profile.faults = [] ∧
    ∃ format, DisplayFormat.ofPattern profile.displayDateFormat = .ok format := by
  rw [faults_eq_nil_iff]
  constructor
  · rintro ⟨hnamed, hpos, hle, hne, d, hshown⟩
    refine ⟨fun fault hfault => ?_, ?_⟩
    · cases fault with
      | emptyAppName => exact hnamed hfault
      | startMonthOutOfRange => exact hfault ⟨hpos, hle⟩
    · have hepoch := (isSome_render? profile.displayDateFormat .epoch d).trans hshown
      exact ⟨⟨_, hepoch⟩,
        (DisplayFormat.ofPattern_eq_ok_iff _ _).mpr ⟨hne, (isSome_render?_iff _ _).mp hshown, rfl⟩⟩
  · rintro ⟨hfaults, format, hformat⟩
    obtain ⟨hne, hitems, -⟩ := (DisplayFormat.ofPattern_eq_ok_iff _ _).mp hformat
    have hmonth := not_not.mp (hfaults .startMonthOutOfRange)
    exact ⟨hfaults .emptyAppName, hmonth.1, hmonth.2, hne, .epoch,
      (isSome_render?_iff _ _).mpr hitems⟩

/-- **A profile is accepted if and only if every part of it can be used.** -/
theorem exists_resolve_eq_ok_iff : (∃ resolved, profile.resolve = .ok resolved) ↔ profile.Usable := by
  rw [usable_iff]
  constructor
  · rintro ⟨resolved, hresolved⟩
    by_cases h : profile.faults = []
    · obtain ⟨calendar, hresolve⟩ := resolve_of_faults_eq_nil h
      obtain ⟨format, hformat, -⟩ := map_eq_ok_iff.mp (hresolve.symm.trans hresolved)
      exact ⟨h, format, mapError_eq_ok_iff.mp hformat⟩
    · rw [resolve_of_faults_ne_nil h] at hresolved
      cases hresolved
  · rintro ⟨h, format, hformat⟩
    obtain ⟨calendar, hresolve⟩ := resolve_of_faults_eq_nil h
    exact ⟨_, hresolve.trans (map_eq_ok_iff.mpr ⟨format, mapError_eq_ok_iff.mpr hformat, rfl⟩)⟩

/-- **The verdict on a profile.**  It is accepted if and only if it has a name, a month from 1 to 12
and a pattern that is not empty and can be filled in with some date, and then keeps all three.  If
there is something wrong with the name or the month, just that is reported, whatever the pattern: of
the two fields those that are wrong have a line of the message.  Else a profile can only be refused
for its pattern.  It is never the calendar that refuses the month. -/
theorem verdict (profile : Profile) :
    ((∃ resolved, profile.resolve = .ok resolved) ↔ profile.Usable) ∧
      (∀ resolved, profile.resolve = .ok resolved → resolved.appName = profile.appName ∧
        resolved.calendar.startMonth = profile.fiscalStartMonth ∧
        resolved.format.pattern = profile.displayDateFormat) ∧
      ((∃ fault : ProfileFault, fault.IsOf profile) →
        ∃ (faults : List ProfileFault) (lines : List String),
        (∀ pattern, { profile with displayDateFormat := pattern }.resolve =
          .error (.invalidProfile faults)) ∧
        faults.Nodup ∧ (∀ fault, fault ∈ faults ↔ fault.IsOf profile) ∧
        (ExportError.invalidProfile faults).message =
          "Invalid export configuration: " ++ "\n".intercalate lines ∧
        lines.length = faults.length ∧
        ∀ fault : ProfileFault,
          (∃ line ∈ lines, ProfileFault.IsAbout line fault.field) ↔ fault.IsOf profile) ∧
      ((∀ fault : ProfileFault, ¬ fault.IsOf profile) → ∀ error, profile.resolve = .error error →
        error = .calendar (.invalidPattern profile.displayDateFormat)) ∧
      ∀ month, profile.resolve ≠ .error (.calendar (.invalidMonth month)) := by
  refine ⟨exists_resolve_eq_ok_iff, fun resolved h => parts_of_resolve h, ?_, ?_, ?_⟩
  · rintro ⟨fault, hfault⟩
    have hne : profile.faults ≠ [] := List.ne_nil_of_mem ((mem_faults_iff fault).mpr hfault)
    refine ⟨profile.faults, profile.faults.map ProfileFault.message, fun pattern => ?_,
      nodup_faults, mem_faults_iff, rfl, List.length_map _, fun fault => ?_⟩
    · -- the pattern plays no part in the faults
      have hsame : { profile with displayDateFormat := pattern }.faults ≠ [] := hne
      exact resolve_of_faults_ne_nil hsame
    · rw [← mem_faults_iff]
      constructor
      · rintro ⟨line, hline, habout⟩
        obtain ⟨other, hother, rfl⟩ := List.mem_map.mp hline
        exact (ProfileFault.isAbout_iff other fault).mp habout ▸ hother
      · intro hmem
        exact ⟨_, List.mem_map_of_mem hmem, (ProfileFault.isAbout_iff fault fault).mpr rfl⟩
  · intro h error herror
    exact eq_of_resolve_eq_error (faults_eq_nil_iff.mpr h) herror
  · intro month herror
    by_cases h : profile.faults = []
    · cases eq_of_resolve_eq_error h herror
    · rw [resolve_of_faults_ne_nil h] at herror
      cases herror

/-- A profile without a name and with a thirteenth month is refused for both, although its pattern
cannot be filled in either; with the name and the month in order it is refused for the pattern. -/
theorem verdict_of_three_faults :
    let profile : Profile := ⟨"", 13, "%H"⟩
    let named : Profile := ⟨"CoverApp", 12, "%H"⟩
    (∃ faults, profile.resolve = .error (.invalidProfile faults) ∧
        .emptyAppName ∈ faults ∧ .startMonthOutOfRange ∈ faults) ∧
      ¬ profile.Usable ∧ (∀ fault : ProfileFault, ¬ fault.IsOf named) ∧
      named.resolve = .error (.calendar (.invalidPattern "%H")) := by
  intro profile named
  obtain ⟨-, -, hfaults, -, -⟩ := verdict profile
  obtain ⟨faults, -, hresolve, -, hmem, -⟩ := hfaults ⟨.emptyAppName, rfl⟩
  have hrefused : profile.resolve = .error (.invalidProfile faults) := hresolve "%H"
  have hsound : ∀ fault : ProfileFault, ¬ fault.IsOf named := faults_eq_nil_iff.mp (by decide)
  obtain ⟨hpattern, -, -, hnamed, -⟩ := verdict named
  have hunusable : ¬ named.Usable := by
    rintro ⟨-, -, -, -, d, hshown⟩
    exact absurd hshown (by rw [isSome_render?_iff]; decide)
  obtain ⟨error, herror⟩ :=
    exists_error_of_ne_ok fun resolved h => hunusable (hpattern.mp ⟨resolved, h⟩)
  refine ⟨⟨faults, hrefused, (hmem _).mpr rfl, (hmem _).mpr (by decide)⟩, ?_, hsound, ?_⟩
  · intro husable
    exact husable.named rfl
  · rw [herror, hnamed hsound error herror]

end Profile

end Posting
