import Posting.Proofs.VariableReadings
import Posting.Settings

/-! # Settings taken from variables

Settings are loaded from variables of which each is set once at most (`Assigned`).  A setting
depends on one of them (`lookup_eq`): it is as usual if this one is not set, and is taken from its
text otherwise (`Taken`).

`load_eq_ok_iff_taken` says which settings are loaded from which variables.  Not every text is taken
as it is written (`not_taken_as_written`), since those that are read as numbers or truth values are
written anew. -/

namespace Posting.Settings

/-! ### Variables -/

/-- The variables that settings are named by. -/
def settingNames : List String :=
  ["EXPORT_APP_NAME", "EXPORT_FISCAL_START_MONTH", "EXPORT_DISPLAY_DATE_FORMAT",
    "EXPORT_OUTPUT_DIR", "EXPORT_LOG_LEVEL"]

/-- An assignment of values to some of those variables, and to others that are about no settings. -/
structure Assigned (environment : List (String × String)) : Prop where
  names : ∀ entry ∈ environment, entry.1 ∈ settingNames ∨ NamePath.ofName? entry.1 = none
  nodup : (environment.map Prod.fst).Nodup

theorem Assigned.tail {entry : String × String} {rest : List (String × String)}
    (h : Assigned (entry :: rest)) : Assigned rest := by
  have hnodup := h.nodup
  rw [List.map_cons, List.nodup_cons] at hnodup
  exact ⟨fun other hother => h.names other (List.mem_cons_of_mem entry hother), hnodup.2⟩

theorem steps_eq_nil_of_mem_settingNames :
    ∀ name ∈ settingNames, (NamePath.ofName? name).map NamePath.steps = some [] := by
  decide

theorem eq_of_ofName?_eq :
    ∀ name ∈ settingNames, ∀ other ∈ settingNames,
      NamePath.ofName? other = NamePath.ofName? name → other = name := by
  decide

section

variable {name key : String} {environment : List (String × String)}

theorem given?_eq (hname : name ∈ settingNames) (hkey : NamePath.ofName? name = some ⟨key, []⟩)
    {entry : String × String} (hentry : entry.1 ∈ settingNames ∨ NamePath.ofName? entry.1 = none) :
    given? key entry = if entry.1 = name then some (.literal (.ofText entry.2)) else none := by
  unfold given?
  by_cases hsame : entry.1 = name
  · rw [if_pos hsame, hsame, hkey]
    exact if_pos rfl
  rw [if_neg hsame]
  rcases hentry with hmem | hnone
  · have hsteps := steps_eq_nil_of_mem_settingNames entry.1 hmem
    obtain ⟨⟨other, steps⟩, hpath, hnil⟩ := Option.map_eq_some_iff.mp hsteps
    have hne : other ≠ key := by
      rintro rfl
      obtain rfl : steps = [] := hnil
      exact hsame (eq_of_ofName?_eq name hname entry.1 hmem (hpath.trans hkey.symm))
    rw [hpath]
    simp only
    rw [if_neg hne]
  · rw [hnone]

/-- **What variables make of a setting** is up to the one that it is named by. -/
theorem lookup_eq (h : Assigned environment) (hname : name ∈ settingNames)
    (hkey : NamePath.ofName? name = some ⟨key, []⟩) :
    lookup key environment =
      (environment.lookup name).map (fun value => .literal (.ofText value)) := by
  unfold lookup
  induction environment with
  | nil => rfl
  | cons entry rest ih =>
      have hgiven := given?_eq hname hkey (h.names entry List.mem_cons_self)
      by_cases hsame : entry.1 = name
      · have hrest : rest.filterMap (given? key) = [] := by
          rw [List.filterMap_eq_nil_iff]
          intro other hother
          have hnodup := h.nodup
          rw [List.map_cons, List.nodup_cons] at hnodup
          have hne : other.1 ≠ name := by
            intro heq
            exact hnodup.1 (List.mem_map.mpr ⟨other, hother, heq.trans hsame.symm⟩)
          rw [given?_eq hname hkey (h.names other (List.mem_cons_of_mem entry hother)), if_neg hne]
        rw [if_pos hsame] at hgiven
        rw [List.filterMap_cons_some hgiven, hrest, List.lookup_cons, hsame, beq_self_eq_true]
        rfl
      · rw [if_neg hsame] at hgiven
        have hlookup : (entry :: rest).lookup name = rest.lookup name := by
          rw [List.lookup_cons, beq_eq_false_iff_ne.mpr (Ne.symm hsame)]
        rw [List.filterMap_cons_none hgiven, hlookup]
        exact ih h.tail

end

/-! ### Settings -/

/-- A setting that is as usual if its variable is not set, and is taken from its text otherwise. -/
def TakenFrom {α : Type} (takes : String → α → Prop) (text? : Option String)
    (standard setting : α) : Prop :=
  match text? with
  | none => setting = standard
  | some text => takes text setting

/-- Settings of which each is taken from its variable, by one way for texts and one for months. -/
structure Taken (text : String → String → Prop) (month : String → ℕ → Prop)
    (environment : List (String × String)) (settings : Settings) : Prop where
  appName : TakenFrom text (environment.lookup "EXPORT_APP_NAME") "CoverApp" settings.appName
  fiscalStartMonth : TakenFrom month (environment.lookup "EXPORT_FISCAL_START_MONTH") 1
    settings.fiscalStartMonth
  displayDateFormat : TakenFrom text (environment.lookup "EXPORT_DISPLAY_DATE_FORMAT") "%m/%d/%Y"
    settings.displayDateFormat
  outputDir : TakenFrom text (environment.lookup "EXPORT_OUTPUT_DIR") "exports" settings.outputDir
  logLevel : TakenFrom text (environment.lookup "EXPORT_LOG_LEVEL") "info" settings.logLevel

section

variable {name key : String} {environment : List (String × String)}

theorem textSetting_eq_ok_iff (h : Assigned environment) (hname : name ∈ settingNames)
    (hkey : NamePath.ofName? name = some ⟨key, []⟩) (standard setting : String) :
    textSetting key standard environment = .ok setting ↔
      TakenFrom ShownAs (environment.lookup name) standard setting := by
  rw [textSetting, lookup_eq h hname hkey]
  cases environment.lookup name with
  | none =>
      show (.ok standard : Except SettingError String) = .ok setting ↔ setting = standard
      rw [Except.ok.injEq, eq_comm]
  | some text =>
      show (.ok (Literal.ofText text).asText : Except SettingError String) = .ok setting ↔
        ShownAs text setting
      rw [Except.ok.injEq, shownAs_iff]

theorem monthSetting_eq_ok_iff (h : Assigned environment) (hname : name ∈ settingNames)
    (hkey : NamePath.ofName? name = some ⟨key, []⟩) (standard setting : ℕ) :
    monthSetting key standard environment = .ok setting ↔
      TakenFrom MonthOf (environment.lookup name) standard setting := by
  rw [monthSetting, lookup_eq h hname hkey]
  cases environment.lookup name with
  | none =>
      show (.ok standard : Except SettingError ℕ) = .ok setting ↔ setting = standard
      rw [Except.ok.injEq, eq_comm]
  | some text =>
      show ((Literal.ofText text).month.mapError _ : Except SettingError ℕ) = .ok setting ↔
        MonthOf text setting
      rw [mapError_eq_ok_iff, monthOf_iff]

theorem load_eq (h : Assigned environment) :
    load environment = (ofVariables environment).mapError .setting := by
  have hpossible : (environment.map Prod.fst).find? hasImpossibleIndex = none := by
    rw [List.find?_eq_none]
    intro name hmem
    obtain ⟨entry, hentry, rfl⟩ := List.mem_map.mp hmem
    have hnames : ∀ name ∈ settingNames, ¬ hasImpossibleIndex name = true := by decide
    rcases h.names entry hentry with hname | hnone
    · exact hnames entry.1 hname
    · rw [hasImpossibleIndex, hnone]
      exact Bool.false_ne_true
  rw [load, hpossible]

/-- **Which settings are loaded from which variables.**  A setting whose variable is not set is as
usual.  A text is taken as it is, unless it is read as a truth value, an integer or a floating-point
number, which are written anew (`ShownAs`); a month is a natural number, or what is rounded or
stands for one (`MonthOf`).  Settings are loaded if and only if there is such a month. -/
theorem load_eq_ok_iff_taken (h : Assigned environment) (settings : Settings) :
    load environment = .ok settings ↔ Taken ShownAs MonthOf environment settings := by
  have happName := textSetting_eq_ok_iff h (show "EXPORT_APP_NAME" ∈ settingNames by decide) rfl
  have hmonth :=
    monthSetting_eq_ok_iff h (show "EXPORT_FISCAL_START_MONTH" ∈ settingNames by decide) rfl
  have hformat :=
    textSetting_eq_ok_iff h (show "EXPORT_DISPLAY_DATE_FORMAT" ∈ settingNames by decide) rfl
  have houtputDir := textSetting_eq_ok_iff h (show "EXPORT_OUTPUT_DIR" ∈ settingNames by decide) rfl
  have hlogLevel := textSetting_eq_ok_iff h (show "EXPORT_LOG_LEVEL" ∈ settingNames by decide) rfl
  rw [load_eq h, mapError_eq_ok_iff, ofVariables]
  simp only [bind_eq_ok_iff]
  constructor
  · rintro ⟨appName, happ, month, hmon, format, hfor, outputDir, hout, logLevel, hlog, ⟨⟩⟩
    exact ⟨(happName _ _).mp happ, (hmonth _ _).mp hmon, (hformat _ _).mp hfor,
      (houtputDir _ _).mp hout, (hlogLevel _ _).mp hlog⟩
  · rintro ⟨happ, hmon, hfor, hout, hlog⟩
    exact ⟨_, (happName _ _).mpr happ, _, (hmonth _ _).mpr hmon, _, (hformat _ _).mpr hfor,
      _, (houtputDir _ _).mpr hout, _, (hlogLevel _ _).mpr hlog, rfl⟩

end

/-- An office named by a number with zeros in front, a month between two, dates written by a word
for truth, and a directory named by a number with a zero behind. -/
def numbersForNames : List (String × String) :=
  [("EXPORT_APP_NAME", "007"), ("EXPORT_FISCAL_START_MONTH", "2.5"),
    ("EXPORT_DISPLAY_DATE_FORMAT", "TRUE"), ("EXPORT_OUTPUT_DIR", "1.50")]

theorem assigned_numbersForNames : Assigned numbersForNames :=
  ⟨by decide, by decide⟩

theorem load_numbersForNames :
    load numbersForNames = .ok ⟨"7", 3, "true", "1.5", "info"⟩ := by
  decide +kernel

/-- All four are written anew, and the level of logging is as usual. -/
theorem taken_numbersForNames :
    Assigned numbersForNames ∧ load numbersForNames = .ok ⟨"7", 3, "true", "1.5", "info"⟩ ∧
      Taken ShownAs MonthOf numbersForNames ⟨"7", 3, "true", "1.5", "info"⟩ :=
  ⟨assigned_numbersForNames, load_numbersForNames,
    (load_eq_ok_iff_taken assigned_numbersForNames _).mp load_numbersForNames⟩

/-- **Texts are not always taken as they are written**, and a month need not be written as an
integer: here a number, a word for truth and a number with places become other texts, and a month is
rounded. -/
theorem not_taken_as_written :
    Assigned numbersForNames ∧
      load numbersForNames = .ok ⟨"7", 3, "true", "1.5", "info"⟩ ∧
      ¬ Taken (fun text setting => setting = text)
        (fun text month => WritesInteger text.toList month)
        numbersForNames ⟨"7", 3, "true", "1.5", "info"⟩ ∧
      ∀ month, ¬ WritesInteger "2.5".toList month := by
  refine ⟨assigned_numbersForNames, load_numbersForNames, ?_, ?_⟩
  · intro htaken
    have happName : "7" = "007" := htaken.appName
    revert happName
    decide
  · intro month hwrites
    have hdigits := ((writesInteger_iff _ _).mp hwrites).2.1
    revert hdigits
    decide

end Posting.Settings
