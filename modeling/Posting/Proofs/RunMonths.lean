import Posting.Proofs.RepeatedRuns

/-! # The month of a run

The heading of a batch tells the month of its run, and the name of its file the destination as well.
Files that are named apart lie apart, in whatever directories they are named
(`FileTree.apart_of_endsIn`).  So a run leaves the files of other months and destinations alone
(`read_outcome`), and so do any number of runs (`read_runAll`). -/

namespace Posting

open Calendar Files FileTree

/-! ### Files of different names -/

namespace Files.FileTree

theorem apart_of_endsIn (tree : FileTree) {path other name name' : String}
    (hname : EndsIn path name) (hname' : EndsIn other name') (hne : name ≠ name') :
    tree.Apart path other := by
  intro names hlies hlies'
  have h := (hlies.getLast? hname).symm.trans (hlies'.getLast? hname')
  rw [Option.some.injEq] at h
  exact hne h

end Files.FileTree

theorem endsIn_outputPath {request : Request} (hown : request.output = none) (settings : Settings)
    (profile : ResolvedProfile) (destination : Destination) :
    EndsIn (outputPath settings request profile destination)
      (profile.batch destination request.date).fileName := by
  rw [outputPath, hown, Option.getD_none, ResolvedProfile.fileName_batch]
  exact endsIn_join _ (isName_fileName _ _ _)

/-! ### Runs one after the other -/

/-- Two requests for one destination in one month. -/
structure Request.Alike (request other : Request) : Prop where
  destination : Destination.parse request.destination = Destination.parse other.destination
  year : request.date.year = other.date.year
  month : request.date.month = other.date.month

/-- The files after runs, of which some may fail. -/
def runAll (settings : Settings) (requests : List Request) (tree : FileTree) : FileTree :=
  requests.foldl (fun tree request => (outcome settings request tree).2) tree

section

variable {settings : Settings} {tree : FileTree} {path : String} {content : ByteArray}

/-- **A run leaves a file alone** that lies apart from where it writes. -/
theorem read_outcome {request : Request} (hread : tree.read path = .ok content)
    (hapart : ∀ profile destination, Opened settings request profile destination →
      (outcome settings request tree).2.Apart path
        (outputPath settings request profile destination)) :
    (outcome settings request tree).2.read path = .ok content := by
  rw [outcome_eq] at hapart ⊢
  rcases hprepare : prepare settings request (decodeFound request.input (tree.read request.input))
    with error | ⟨report, payload⟩
  · exact hread
  · obtain ⟨profile, destination, -, -, opened, -, -, houtput, -⟩ := of_prepare hprepare
    have hlater := hapart profile destination opened
    rw [hprepare, ← houtput] at hlater
    exact read_saveIn hread hlater

/-- **Runs leave a file alone** whose name none of them would give. -/
theorem read_runAll {name : String} {requests : List Request} (hname : EndsIn path name)
    (hothers : ∀ request ∈ requests, request.output = none ∧
      ∀ profile destination, Opened settings request profile destination →
        name ≠ (profile.batch destination request.date).fileName)
    (hread : tree.read path = .ok content) :
    (runAll settings requests tree).read path = .ok content := by
  induction requests generalizing tree with
  | nil => exact hread
  | cons request rest ih =>
      obtain ⟨hown, hne⟩ := hothers request List.mem_cons_self
      have hfirst : (outcome settings request tree).2.read path = .ok content := by
        refine read_outcome hread fun profile destination opened => ?_
        have hname' := endsIn_outputPath hown settings profile destination
        exact apart_of_endsIn _ hname hname' (hne profile destination opened)
      exact ih (fun later hlater => hothers later (List.mem_cons_of_mem request hlater)) hfirst

/-- The file of a run outlives all runs for other destinations or other months. -/
theorem read_runAll_of_not_alike {request : Request} {after : FileTree} {report : Report}
    (h : outcome settings request tree = (.ok report, after)) (hown : request.output = none)
    {later : List Request} (hlater : ∀ other ∈ later, other.output = none ∧ ¬ other.Alike request) :
    ∃ content, after.read report.output = .ok content ∧
      (runAll settings later after).read report.output = .ok content := by
  cases ending_of_run hosted_access h with
  | @done profile destination transactions batch _ opened loaded hextend saved =>
      have hname := endsIn_outputPath hown settings profile destination
      refine ⟨_, saved.content, read_runAll hname (fun other hother => ?_) saved.content⟩
      obtain ⟨hown', hnot⟩ := hlater other hother
      refine ⟨hown', fun profile' destination' opened' heq => hnot ?_⟩
      obtain rfl : profile = profile' := by
        have := opened.profile.symm.trans opened'.profile
        rwa [Except.ok.injEq] at this
      obtain ⟨rfl, hyear, hmonth⟩ := (profile.fileName_eq_iff _ _ _ _).mp heq
      exact ⟨opened'.destination.trans opened.destination.symm, hyear.symm, hmonth.symm⟩

end

/-- **Headings and file names tell the month of a run.**  Under one profile, two headings are equal
if and only if their dates lie in one month of one year, and two file names if and only if moreover
they are of one destination.  No two file names of different destinations, years or periods are
equal, and none holds a separator of paths.  So the file of a run that succeeded is as it was after
any further runs, each for another destination, another month or another year. -/
theorem months_have_own_files :
    (∀ (profile : ResolvedProfile) (d d' : Date),
      (profile.heading d = profile.heading d' ↔ d.year = d'.year ∧ d.month = d'.month) ∧
        ∀ destination other : Destination,
          (profile.batch destination d).fileName = (profile.batch other d').fileName ↔
            destination = other ∧ d.year = d'.year ∧ d.month = d'.month) ∧
      (Function.Injective
        fun key : Destination × Int × Nat => key.1.fileName key.2.1 key.2.2) ∧
      (∀ (destination : Destination) (year : Int) (period : Nat),
        '/' ∉ (destination.fileName year period).toList ∧
          '\\' ∉ (destination.fileName year period).toList) ∧
      ∀ (settings : Settings) (request : Request) (tree : FileTree) (report : Report)
        (after : FileTree), outcome settings request tree = (.ok report, after) →
          request.output = none → ∀ later : List Request,
            (∀ other ∈ later, other.output = none ∧ ¬ other.Alike request) →
              ∃ content, after.read report.output = .ok content ∧
                (runAll settings later after).read report.output = .ok content := by
  refine ⟨?_, Destination.fileName_injective, ?_, ?_⟩
  · intro profile d d'
    exact ⟨profile.heading_eq_iff d d', profile.fileName_eq_iff d d'⟩
  · intro destination year period
    constructor
    · intro hslash
      have := Destination.mem_fileName hslash
      revert this
      decide
    · intro hslash
      have := Destination.mem_fileName hslash
      revert this
      decide
  · intro settings request tree report after h hown later hlater
    exact read_runAll_of_not_alike h hown hlater

/-- A journal of May, before a statement of May, a journal of June and one of the next year's May. -/
theorem months_have_own_files_in_office :
    let request (destination : String) (d : Date) : Request := ⟨destination, d, "in.json", none⟩
    let may : Date := ⟨2024, 5, 6, by decide⟩
    let later : List Request := [request "statement" may, request "gl" ⟨2024, 6, 6, by decide⟩,
      request "GL" ⟨2025, 5, 6, by decide⟩]
    let after := (outcome {} (request "GL" may) officeTree).2
    (∀ other ∈ later, other.output = none ∧ ¬ other.Alike (request "GL" may)) ∧
      ∃ report, outcome {} (request "GL" may) officeTree = (.ok report, after) ∧
        ∃ content, after.read report.output = .ok content ∧
          (runAll {} later after).read report.output = .ok content := by
  intro request may later after
  obtain ⟨-, -, -, houtlives⟩ := months_have_own_files
  have hlater : ∀ other ∈ later, other.output = none ∧ ¬ other.Alike (request "GL" may) := by
    simp only [later, List.forall_mem_cons]
    refine ⟨⟨rfl, ?_⟩, ⟨rfl, ?_⟩, ⟨rfl, ?_⟩, by rintro _ ⟨⟩⟩
    · intro halike
      exact absurd halike.destination (by decide +kernel)
    · intro halike
      exact absurd halike.month (by decide)
    · intro halike
      exact absurd halike.year (by decide)
  have hreport : (outcome {} (request "GL" may) officeTree).1 =
      .ok ⟨.generalLedger, "exports/general_ledger_2024_05.csv",
        ⟨2, some (.ofParts true 143 2 (by decide) (by decide))⟩, 3⟩ := by decide +kernel
  have hrun : outcome {} (request "GL" may) officeTree = (.ok _, after) := Prod.ext hreport rfl
  exact ⟨hlater, _, hrun, houtlives _ _ _ _ _ hrun rfl later hlater⟩

end Posting
