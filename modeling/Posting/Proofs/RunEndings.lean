import Posting.Proofs.BatchFiles
import Posting.Proofs.FileEffects
import Posting.Run
import Posting.Sample

/-! # How runs end

A run fails because of its settings, its destination, its input, the number of its rows or its
output, in this order, or it is done.  `Ending` lists these cases with what is known in each, and
`ending_of_run` says that there are no others.

* `completed_of_run` is what a run that succeeds has done: the whole file, the report, and what has
  become of all other files.
* `files_of_failed_run` is what a run that fails leaves behind, and which of its faults it names. -/

namespace Posting

open Calendar Files

variable {access : Access (StateM FileTree)}

/-! ### Loading -/

/-- What comes of loading a file: its transactions, or why there are none. -/
inductive Loaded (tree : FileTree) (path : String) : Except RunError (List Transaction) → Prop
  | read {text : String} {transactions : List Transaction}
      (hfile : tree.read path = .ok text.toUTF8)
      (htext : Transaction.fromJson text = .ok transactions) : Loaded tree path (.ok transactions)
  | unreadable (error : FileError) : Loaded tree path (.error (.unreadable path error))
  | malformed (error : Json.Error) : Loaded tree path (.error (.malformed path error))

theorem loaded_of_load (hosted : access.Hosted) {tree after : FileTree} {path : String}
    {result : Except RunError (List Transaction)}
    (h : (load access path).run.run tree = (result, after)) :
    after = tree ∧ Loaded tree path result := by
  obtain ⟨found, read⟩ : ∃ found, (access.readText path).run tree = (found, tree) ∧
      ∀ text, found = .ok text → tree.read path = .ok text.toUTF8 := by
    rcases hrun : (access.readText path).run tree with ⟨found, between⟩
    obtain ⟨rfl, hread⟩ := hosted.readText hrun
    exact ⟨found, rfl, hread⟩
  rw [load, run_lift_bind_eq, read.1] at h
  split at h
  · cases h
    exact ⟨rfl, .unreadable _⟩
  · next text htext =>
      split at h
      · next htransactions =>
          cases h
          exact ⟨rfl, .read (read.2 text htext) htransactions⟩
      · cases h
        exact ⟨rfl, .malformed _⟩

/-! ### Saving -/

/-- A file that is saved, with the directories above it, and nothing else that is new. -/
structure Saved (path : String) (bytes : ByteArray) (before after : FileTree) : Prop where
  content : after.read path = .ok bytes
  above : ∀ upper ∈ uppers path, after.isDirectory upper = true
  rest : ∀ names, after.LiesAt path names ∨ after.get? names = before.get? names ∨
    before.get? names = none ∧ after.get? names = some .directory ∧
      ∃ upper ∈ uppers path, after.LiesAt upper names

/-- What comes of saving a file: the file, or why there is none. -/
inductive Saving (path : String) (bytes : ByteArray) (before after : FileTree) :
    Except RunError Unit → Prop
  | done (saved : Saved path bytes before after) : Saving path bytes before after (.ok ())
  | failed {place : String} {error : FileError} (grown : FileTree.Grown (uppers path) before after) :
      Saving path bytes before after (.error (.unwritable place error))

theorem saving_of_write (hosted : access.Hosted) {before between after : FileTree} {path : String}
    {bytes : ByteArray} {result : Except RunError Unit}
    (hgrown : FileTree.Grown (uppers path) before between)
    (h : (do
      match ← access.write path bytes with
      | .ok () => return ()
      | .error error => throw (.unwritable path error) :
        ExceptT RunError (StateM FileTree) Unit).run.run between = (result, after)) :
    Saving path bytes before after result := by
  rw [run_lift_bind_eq] at h
  rcases hosted.write path bytes between with ⟨written, hwrite, hrun⟩ | ⟨error, hrun⟩
  · rw [hrun] at h
    cases h
    obtain ⟨hread, hkeeps, hrest⟩ := FileTree.of_write hwrite
    refine .done ⟨hread, fun upper hupper => ?_, fun names => ?_⟩
    · obtain ⟨place, hlocate⟩ : ∃ place, written.locate path = .ok place := by
        unfold FileTree.read at hread
        obtain ⟨place, hlocate, -⟩ := bind_eq_ok_iff.mp hread
        exact ⟨place, hlocate⟩
      exact FileTree.isDirectory_of_above hlocate (above_of_mem_uppers hupper)
    · rcases hrest names with hlies | hsame
      · exact Or.inl hlies
      · rcases hgrown names with hold | ⟨hnone, hnew, upper, hupper, hlies⟩
        · exact Or.inr (Or.inl (hsame.trans hold))
        · exact Or.inr (Or.inr ⟨hnone, hsame.trans hnew, upper, hupper, hkeeps.liesAt hlies⟩)
  · rw [hrun] at h
    cases h
    exact .failed hgrown

theorem saving_of_save (hosted : access.Hosted) {tree after : FileTree} {path : String}
    {payload : Payload} {result : Except RunError Unit}
    (h : (save access path payload).run.run tree = (result, after)) :
    Saving path payload.text.toUTF8 tree after result := by
  unfold save at h
  split at h
  · exact saving_of_write hosted (.refl _ tree) h
  · next parent hparent =>
      have huppers : uppers path = ancestors parent := by
        rw [uppers, hparent]
      split at h
      · rw [run_lift_bind_eq] at h
        have hgrown : FileTree.Grown (uppers path) tree
            ((access.makeDirectories parent).run tree).2 :=
          huppers ▸ hosted.makeDirectories rfl
        split at h
        · exact saving_of_write hosted hgrown h
        · cases h
          exact .failed hgrown
      · exact saving_of_write hosted (.refl _ tree) h

/-! ### Runs -/

/-- What a run starts with: the profile of its settings and its destination. -/
structure Opened (settings : Settings) (request : Request) (profile : ResolvedProfile)
    (destination : Destination) : Prop where
  profile : settings.profile.resolve = .ok profile
  destination : Destination.parse request.destination = .ok destination

/-- Where a run writes its file. -/
def outputPath (settings : Settings) (request : Request) (profile : ResolvedProfile)
    (destination : Destination) : String :=
  request.output.getD (join settings.outputDir
    (destination.fileName request.date.year (profile.calendar.period request.date)))

/-- The ways in which a run ends, in the order in which they are come by. -/
inductive Ending (settings : Settings) (request : Request) (tree : FileTree) :
    Except RunError Report → FileTree → Prop
  | profileRefused {error : ExportError} (hprofile : settings.profile.resolve = .error error) :
      Ending settings request tree (.error (.refused error)) tree
  | destinationRefused {profile : ResolvedProfile} {error : ExportError}
      (hprofile : settings.profile.resolve = .ok profile)
      (hdestination : Destination.parse request.destination = .error error) :
      Ending settings request tree (.error (.refused error)) tree
  | notLoaded {profile : ResolvedProfile} {destination : Destination} {error : RunError}
      (opened : Opened settings request profile destination)
      (loaded : Loaded tree request.input (.error error)) :
      Ending settings request tree (.error error) tree
  | overfull {profile : ResolvedProfile} {destination : Destination}
      {transactions : List Transaction} {batch : Batch} {error : ExportError}
      (opened : Opened settings request profile destination)
      (loaded : Loaded tree request.input (.ok transactions))
      (hextend : (profile.batch destination request.date).extend transactions =
        (batch, some error)) :
      Ending settings request tree (.error (.refused error)) tree
  | notSaved {profile : ResolvedProfile} {destination : Destination} {place : String}
      {error : FileError} {after : FileTree}
      (opened : Opened settings request profile destination)
      (grown : FileTree.Grown (uppers (outputPath settings request profile destination)) tree
        after) :
      Ending settings request tree (.error (.unwritable place error)) after
  | done {profile : ResolvedProfile} {destination : Destination}
      {transactions : List Transaction} {batch : Batch} {after : FileTree}
      (opened : Opened settings request profile destination)
      (loaded : Loaded tree request.input (.ok transactions))
      (hextend : (profile.batch destination request.date).extend transactions = (batch, none))
      (saved : Saved (outputPath settings request profile destination)
        batch.render.text.toUTF8 tree after) :
      Ending settings request tree
        (.ok ⟨batch.destination, outputPath settings request profile destination, batch.summary,
          transactions.length⟩) after

section

variable {settings : Settings} {request : Request} {tree : FileTree}

theorem run_orRefuse_error {α β : Type} {result : Except ExportError α} {error : ExportError}
    (h : result = .error error) (next : α → ExceptT RunError (StateM FileTree) β) :
    (orRefuse result >>= next).run.run tree = (.error (.refused error), tree) := by
  rw [h]
  rfl

theorem run_orRefuse_ok {α β : Type} {result : Except ExportError α} {a : α}
    (h : result = .ok a) (next : α → ExceptT RunError (StateM FileTree) β) :
    (orRefuse result >>= next).run.run tree = (next a).run.run tree := by
  rw [h]
  rfl

theorem fileName_filled {profile : ResolvedProfile} {destination : Destination} {d : Date}
    {transactions : List Transaction} {batch : Batch}
    (h : (profile.batch destination d).extend transactions = (batch, none)) :
    batch.fileName = destination.fileName d.year (profile.calendar.period d) := by
  obtain ⟨hlayout, hheading, -⟩ := ResolvedProfile.filled h
  rw [Batch.fileName, Batch.destination, hlayout, hheading]
  cases destination <;> rfl

/-- **Every run ends in one of these ways.** -/
theorem ending_of_run (hosted : access.Hosted) {after : FileTree}
    {result : Except RunError Report}
    (h : (run access settings request).run.run tree = (result, after)) :
    Ending settings request tree result after := by
  rw [run] at h
  rcases hprofile : settings.profile.resolve with error | profile
  · rw [run_orRefuse_error hprofile] at h
    cases h
    exact .profileRefused hprofile
  rw [run_orRefuse_ok hprofile] at h
  rcases hdestination : Destination.parse request.destination with error | destination
  · rw [run_orRefuse_error (batchNamed_eq_error hdestination)] at h
    cases h
    exact .destinationRefused hprofile hdestination
  rw [run_orRefuse_ok (batchNamed_eq_ok hdestination)] at h
  have opened : Opened settings request profile destination := ⟨hprofile, hdestination⟩
  rcases run_bind_cases h with ⟨transactions, between, hload, hrest⟩ | ⟨error, hload, rfl⟩
  · obtain ⟨rfl, loaded⟩ := loaded_of_load hosted hload
    rcases hextend : (profile.batch destination request.date).extend transactions with
      ⟨batch, _ | error⟩
    · simp only [hextend, pure_bind] at hrest
      rw [fileName_filled hextend] at hrest
      rcases run_bind_cases hrest with ⟨⟨⟩, written, hsave, hdone⟩ | ⟨error, hsave, rfl⟩
      · cases hdone
        cases saving_of_save hosted hsave with
        | done saved => exact .done opened loaded hextend saved
      · cases saving_of_save hosted hsave with
        | failed grown => exact .notSaved opened grown
    · rw [hextend] at hrest
      cases hrest
      exact .overfull opened loaded hextend
  · obtain ⟨rfl, loaded⟩ := loaded_of_load hosted hload
    exact .notLoaded opened loaded

end

/-! ### Runs that succeed -/

/-- What a run has done: the file, the report, and nothing else. -/
structure Completed (settings : Settings) (request : Request) (before : FileTree)
    (report : Report) (after : FileTree) (profile : ResolvedProfile) (destination : Destination)
    (transactions : List Transaction) : Prop where
  profile_accepted : settings.profile.resolve = .ok profile
  profile_parts : profile.appName = settings.appName ∧
    profile.calendar.startMonth = settings.fiscalStartMonth ∧
    profile.format.pattern = settings.displayDateFormat
  destination_named : Destination.parse request.destination = .ok destination
  input : ∃ text, before.read request.input = .ok text.toUTF8 ∧
    Transaction.fromJson text = .ok transactions
  /-- The file lies where it is asked for, or else under its own name. -/
  output : report.output = request.output.getD (join settings.outputDir
    (destination.name ++ "_" ++ toString request.date.year ++ "_" ++
      zeroFilled 2 (profile.shownPeriod request.date) ++ ".csv"))
  /-- The file holds the rows of the transactions with an amount, and nothing else. -/
  file : after.read report.output =
    .ok (profile.fileText destination request.date (exportable transactions)).toUTF8
  reported : report.destination = destination ∧ report.read = transactions.length ∧
    report.summary.rows = (exportable transactions).length
  total : (exportable transactions).length < 0x200000000 →
    ∃ total, report.summary.total = some total ∧
      total.value = -(((exportable transactions).map (fun t => t.amount.minor)).sum : ℤ) / 100
  /-- The directories above the file exist. -/
  above : ∀ upper ∈ uppers report.output, after.isDirectory upper = true
  /-- Nothing else has changed, but for directories above the file that were missing. -/
  rest : ∀ names, after.LiesAt report.output names ∨ after.get? names = before.get? names ∨
    before.get? names = none ∧ after.get? names = some .directory ∧
      ∃ upper ∈ uppers report.output, after.LiesAt upper names

/-- **What a run that succeeds has done.** -/
theorem completed_of_run (hosted : access.Hosted) {settings : Settings} {request : Request}
    {tree after : FileTree} {report : Report}
    (h : (run access settings request).run.run tree = (.ok report, after)) :
    ∃ profile destination transactions,
      Completed settings request tree report after profile destination transactions := by
  cases ending_of_run hosted h with
  | @done profile destination transactions batch _ opened loaded hextend saved =>
      obtain ⟨hlayout, -, -⟩ := ResolvedProfile.filled hextend
      have hdestination : batch.destination = destination := by
        rw [Batch.destination, hlayout]
        cases destination <;> rfl
      have hinput : ∃ text, tree.read request.input = .ok text.toUTF8 ∧
          Transaction.fromJson text = .ok transactions := by
        cases loaded with
        | read hfile htext => exact ⟨_, hfile, htext⟩
      have hcontent := saved.content
      rw [ResolvedProfile.text_render hextend] at hcontent
      exact ⟨profile, destination, transactions,
        { profile_accepted := opened.profile
          profile_parts := Profile.parts_of_resolve opened.profile
          destination_named := opened.destination
          input := hinput
          output := by
            rw [← Destination.fileName_eq]
            rfl
          file := hcontent
          reported := ⟨hdestination, rfl, ResolvedProfile.rows_summary hextend⟩
          total := ResolvedProfile.total_summary hextend
          above := saved.above
          rest := saved.rest }⟩

/-- A directory with a file of transactions, of which one has no amount, and with an older batch. -/
def officeTree : FileTree :=
  let text := "[\x7b\"amount\": 150\x7d, \x7b\x7d, \x7b\"name\": \"Ann\", \"amount\": -7\x7d]"
  ⟨[(["in.json"], .file text.toUTF8), (["out"], .directory), (["out", "old.csv"], .file "2,3".toUTF8)]⟩

/-- Two of three transactions are written into a directory that is missing. -/
theorem completed_run_in_office :
    let request : Request := ⟨"GL", ⟨2024, 5, 6, by decide⟩, "in.json", some "out/may/gl.csv"⟩
    let outcome := (run FileTree.access {} request).run.run officeTree
    let report : Report :=
      ⟨.generalLedger, "out/may/gl.csv", ⟨2, some (.ofParts true 143 2 (by decide) (by decide))⟩, 3⟩
    outcome.1 = .ok report ∧ ∃ profile destination transactions,
      Completed {} request officeTree report outcome.2 profile destination transactions := by
  intro request outcome report
  have hreport : outcome.1 = .ok report := by decide +kernel
  exact ⟨hreport, completed_of_run FileTree.hosted_access (Prod.ext hreport rfl)⟩

/-! ### Runs that fail -/

/-- **What a run that fails leaves behind, and which fault it names.**  Nothing has changed unless
the file cannot be written, and then there are new directories at most.  A fault of the settings
comes before one of the destination, and both come before all that the files may be like. -/
theorem files_of_failed_run (hosted : access.Hosted) (settings : Settings) (request : Request) :
    (∀ tree error after, (run access settings request).run.run tree = (.error error, after) →
      match error with
      | .refused _ | .unreadable _ _ | .malformed _ _ => after = tree
      | .unwritable _ _ => ∀ names, after.get? names = tree.get? names ∨
          tree.get? names = none ∧ after.get? names = some .directory) ∧
    (∀ error, settings.profile.resolve = .error error →
      ((∃ faults, error = .invalidProfile faults) ∨ ∃ cause, error = .calendar cause) ∧
        ∀ (access : Access (StateM FileTree)) tree,
          (run access settings request).run.run tree = (.error (.refused error), tree)) ∧
    (∀ profile, settings.profile.resolve = .ok profile →
      Destination.parse? request.destination = none →
        ∀ (access : Access (StateM FileTree)) tree,
          (run access settings request).run.run tree =
            (.error (.refused (.unsupportedDestination request.destination)), tree)) := by
  refine ⟨fun tree error after h => ?_, fun error h => ⟨Profile.error_of_resolve h, ?_⟩, ?_⟩
  · cases ending_of_run hosted h with
    | profileRefused _ => rfl
    | destinationRefused _ _ => rfl
    | notLoaded _ loaded => cases loaded <;> rfl
    | overfull _ _ _ => rfl
    | notSaved _ grown =>
        intro names
        exact (grown names).imp_right fun ⟨hnone, hnew, _⟩ => ⟨hnone, hnew⟩
  · intro access tree
    rw [run, run_orRefuse_error h]
  · intro profile hprofile hnone access tree
    have hdestination : Destination.parse request.destination =
        .error (.unsupportedDestination request.destination) := by
      rw [Destination.parse, hnone]
    rw [run, run_orRefuse_ok hprofile, run_orRefuse_error (batchNamed_eq_error hdestination)]

/-- An input that holds no transactions changes nothing, and an output that names a directory leaves
one behind. -/
theorem files_of_failed_runs_in_office :
    let d : Date := ⟨2024, 5, 6, by decide⟩
    let misread := (run FileTree.access {} ⟨"gl", d, "out/old.csv", none⟩).run.run officeTree
    let misplaced := (run FileTree.access {} ⟨"gl", d, "in.json", some "new/gl/"⟩).run.run officeTree
    let fault : Json.Error := .value (.wrongKind (.number (.integer 2)) "a sequence")
    misread.1 = .error (.malformed "out/old.csv" fault) ∧ misread.2 = officeTree ∧
      misplaced.1 = .error (.unwritable "new/gl/" .isDirectory) ∧
      misplaced.2.get? ["new"] = some .directory ∧
      ∀ names, misplaced.2.get? names = officeTree.get? names ∨
        officeTree.get? names = none ∧ misplaced.2.get? names = some .directory := by
  intro d misread misplaced fault
  have hmisread : misread.1 = .error (.malformed "out/old.csv" fault) := by decide +kernel
  have hmisplaced : misplaced.1 = .error (.unwritable "new/gl/" .isDirectory) := by
    decide +kernel
  have hnew : misplaced.2.get? ["new"] = some .directory := by decide +kernel
  exact ⟨hmisread, (files_of_failed_run FileTree.hosted_access _ _).1 _ _ _ (Prod.ext hmisread rfl),
    hmisplaced, hnew,
    (files_of_failed_run FileTree.hosted_access _ _).1 _ _ _ (Prod.ext hmisplaced rfl)⟩

end Posting
