import Posting.Proofs.RunEndings
import Posting.Proofs.SavedFiles

/-! # Runs repeated and reordered

A run on a tree of files prepares a report and a file from its input (`prepare`) and then saves the
file (`carryOut`); `outcome_eq` says that this is all that it does.

* `decodeFound_outcome`: what a run loads is loaded by later runs as well, unless the run writes over
  it.
* `runs_repeat_and_commute`: so a run that succeeded can be repeated, and two runs that write to the
  directory of the settings can be made in either order.
* `order_of_runs_is_told`: the order shows at one place only, which is the reason why that directory
  cannot be made. -/

namespace Posting

open Calendar Files FileTree

/-! ### What a run comes to -/

/-- What is said of a run on a tree, and the tree that it leaves. -/
def outcome (settings : Settings) (request : Request) (tree : FileTree) :
    Except RunError Report × FileTree :=
  (run access settings request).run.run tree

/-- The transactions of what was found at a path, or why there are none. -/
def decodeFound (path : String) (found : Except FileError ByteArray) :
    Except RunError (List Transaction) :=
  match found with
  | .error error => .error (.unreadable path error)
  | .ok bytes =>
    match String.fromUTF8? bytes with
    | none => .error (.unreadable path .notText)
    | some text => (Transaction.fromJson text).mapError (.malformed path)

/-- The report and the file that a run makes of its transactions. -/
def prepare (settings : Settings) (request : Request)
    (loaded : Except RunError (List Transaction)) : Except RunError (Report × Payload) := do
  match settings.profile.resolve with
  | .error error => .error (.refused error)
  | .ok profile =>
    match profile.batchNamed request.destination request.date with
    | .error error => .error (.refused error)
    | .ok opened =>
      let transactions ← loaded
      match opened.extend transactions with
      | (_, some error) => .error (.refused error)
      | (batch, none) =>
        let output := request.output.getD (join settings.outputDir batch.fileName)
        .ok (⟨batch.destination, output, batch.summary, transactions.length⟩, batch.render)

/-- Saves what was prepared. -/
def carryOut (prepared : Except RunError (Report × Payload)) (tree : FileTree) :
    Except RunError Report × FileTree :=
  match prepared with
  | .error error => (.error error, tree)
  | .ok (report, payload) =>
    let saving := saveIn report.output payload.text.toUTF8 tree
    (saving.1.map (fun _ => report), saving.2)

theorem run_load (path : String) (tree : FileTree) :
    (load access path).run.run tree = (decodeFound path (tree.read path), tree) := by
  have hread : (access.read path).run tree = (tree.read path, tree) := rfl
  rw [load, run_lift_bind_eq, Access.readText, run_bind_eq, hread]
  cases tree.read path with
  | error error => rfl
  | ok bytes =>
      unfold decodeFound
      simp only
      cases String.fromUTF8? bytes with
      | none => rfl
      | some text =>
          have hpure : (pure (.ok text) : StateM FileTree (Except FileError String)).run tree =
              (.ok text, tree) := rfl
          rw [hpure]
          cases hjson : Transaction.fromJson text with
          | error error =>
              simp only [hjson]
              rfl
          | ok transactions =>
              simp only [hjson]
              rfl

/-- **What a run comes to**: it prepares its report and its file, and saves the file. -/
theorem outcome_eq (settings : Settings) (request : Request) (tree : FileTree) :
    outcome settings request tree =
      carryOut (prepare settings request (decodeFound request.input (tree.read request.input)))
        tree := by
  unfold outcome run prepare
  rcases settings.profile.resolve with error | profile
  · rfl
  rw [run_orRefuse_ok rfl]
  simp only
  rcases profile.batchNamed request.destination request.date with error | opened
  · rfl
  rw [run_orRefuse_ok rfl, ExceptT.run_bind, run_bind_eq, run_load]
  rcases decodeFound request.input (tree.read request.input) with error | transactions
  · rfl
  simp only [ok_bind]
  rcases opened.extend transactions with ⟨batch, _ | error⟩
  · simp only [pure_bind, carryOut]
    rw [ExceptT.run_bind, run_bind_eq, run_save]
    rcases saveIn _ _ tree with ⟨_ | _, after⟩ <;> rfl
  · rfl

theorem of_prepare {settings : Settings} {request : Request}
    {loaded : Except RunError (List Transaction)} {report : Report} {payload : Payload}
    (h : prepare settings request loaded = .ok (report, payload)) :
    ∃ profile destination transactions batch, Opened settings request profile destination ∧
      loaded = .ok transactions ∧
      (profile.batch destination request.date).extend transactions = (batch, none) ∧
      report.output = outputPath settings request profile destination ∧ payload = batch.render := by
  unfold prepare at h
  split at h
  · cases h
  · next profile hprofile =>
      rcases hdestination : Destination.parse request.destination with error | destination
      · rw [batchNamed_eq_error hdestination] at h
        cases h
      rw [batchNamed_eq_ok hdestination] at h
      obtain ⟨transactions, hloaded, h⟩ := bind_eq_ok_iff.mp h
      split at h
      · cases h
      · next batch hextend =>
          cases h
          refine ⟨profile, destination, transactions, batch, ⟨hprofile, hdestination⟩, hloaded,
            hextend, ?_, rfl⟩
          rw [fileName_filled hextend]
          rfl

/-! ### The input of a later run -/

namespace Files.FileTree

/-- Two paths that do not lead to one place. -/
def Apart (tree : FileTree) (path other : String) : Prop :=
  ∀ names, tree.LiesAt path names → ¬ tree.LiesAt other names

theorem apart_of_ne {tree : FileTree} {path other : String}
    (h : (tree.locate path).map Place.names ≠ (tree.locate other).map Place.names) :
    tree.Apart path other := by
  rintro names ⟨place, hlocate, rfl⟩ ⟨place', hlocate', hnames⟩
  rw [hlocate, hlocate', ok_map, ok_map, hnames] at h
  exact h rfl

end Files.FileTree

theorem read_saveIn {tree : FileTree} {input path : String} {content bytes : ByteArray}
    (hread : tree.read input = .ok content)
    (hapart : (saveIn path bytes tree).2.Apart input path) :
    (saveIn path bytes tree).2.read input = .ok content := by
  obtain ⟨place, hlocate, hshort, hnode, hslash⟩ := (read_eq_ok_iff _ _ _).mp hread
  obtain ⟨hkeeps, hrest⟩ := frame_saveIn path bytes tree
  refine (read_eq_ok_iff _ _ _).mpr ⟨place, hkeeps.locate hlocate, hshort, ?_, hslash⟩
  rcases hrest place.names with hlies | hsame | hnone
  · exact absurd hlies (hapart _ ⟨place, hkeeps.locate hlocate, rfl⟩)
  · rw [hsame, hnode]
  · rw [hnode] at hnone
    cases hnone

theorem exists_read_of_decodeFound {path : String} {found : Except FileError ByteArray}
    {transactions : List Transaction} (h : decodeFound path found = .ok transactions) :
    ∃ content, found = .ok content := by
  cases found with
  | error error => cases h
  | ok content => exact ⟨content, rfl⟩

/-- Saving what was prepared does not change what is loaded, unless it writes over the input. -/
theorem decodeFound_saveIn {settings : Settings} {request : Request} {tree : FileTree}
    {report : Report} {payload : Payload} (bytes : ByteArray)
    (hprepare : prepare settings request (decodeFound request.input (tree.read request.input)) =
      .ok (report, payload))
    (hapart : (saveIn report.output bytes tree).2.Apart request.input report.output) :
    decodeFound request.input ((saveIn report.output bytes tree).2.read request.input) =
      decodeFound request.input (tree.read request.input) := by
  obtain ⟨-, -, transactions, -, -, hloaded, -⟩ := of_prepare hprepare
  obtain ⟨content, hread⟩ := exists_read_of_decodeFound hloaded
  rw [read_saveIn hread hapart, hread]

/-- **A run does not change what later runs load**, unless it writes over its input. -/
theorem decodeFound_outcome {settings : Settings} (request : Request) {tree : FileTree}
    (hapart : ∀ profile destination, Opened settings request profile destination →
      (outcome settings request tree).2.Apart request.input
        (outputPath settings request profile destination)) :
    decodeFound request.input ((outcome settings request tree).2.read request.input) =
      decodeFound request.input (tree.read request.input) := by
  rw [outcome_eq] at hapart ⊢
  rcases hprepare : prepare settings request (decodeFound request.input (tree.read request.input))
    with error | ⟨report, payload⟩
  · rfl
  · obtain ⟨profile, destination, -, -, opened, -, -, houtput, -⟩ := of_prepare hprepare
    have hlater := hapart profile destination opened
    rw [hprepare, ← houtput] at hlater
    exact decodeFound_saveIn _ hprepare hlater

/-! ### Runs again, and in either order -/

theorem InEitherOrder.map {α β : Type} {first second firstLater secondLater : Except RunError α}
    (h : InEitherOrder first second firstLater secondLater) (f g : α → β) :
    InEitherOrder (first.map f) (second.map g) (firstLater.map f) (secondLater.map g) := by
  cases h with
  | same => exact .same _ _
  | blocked place => exact .blocked place

/-- What was prepared for two runs that write to one directory can be saved in either order. -/
theorem carryOut_comm {settings : Settings} {request request' : Request}
    {loaded : Except RunError (List Transaction)} (hown : request.output = none)
    (hown' : request'.output = none) (tree : FileTree) :
    let prepared := prepare settings request loaded
    let prepared' := prepare settings request' loaded
    Same (carryOut prepared' (carryOut prepared tree).2).2
        (carryOut prepared (carryOut prepared' tree).2).2 ∧
      InEitherOrder (carryOut prepared tree).1 (carryOut prepared' tree).1
        (carryOut prepared (carryOut prepared' tree).2).1
        (carryOut prepared' (carryOut prepared tree).2).1 := by
  intro prepared prepared'
  rcases hprepared : prepared with error | ⟨report, payload⟩
  · exact ⟨.refl _, .same _ _⟩
  rcases hprepared' : prepared' with error | ⟨report', payload'⟩
  · exact ⟨.refl _, .same _ _⟩
  obtain ⟨profile, destination, transactions, batch, opened, hloaded, hextend, houtput, rfl⟩ :=
    of_prepare hprepared
  obtain ⟨profile', destination', transactions', batch', opened', hloaded', hextend', houtput',
    rfl⟩ := of_prepare hprepared'
  obtain rfl : profile = profile' := by
    have := opened.profile.symm.trans opened'.profile
    rwa [Except.ok.injEq] at this
  obtain rfl : transactions = transactions' := by
    have := hloaded.symm.trans hloaded'
    rwa [Except.ok.injEq] at this
  rw [outputPath, hown, Option.getD_none] at houtput
  rw [outputPath, hown', Option.getD_none] at houtput'
  have hname := isName_fileName destination request.date.year (profile.calendar.period request.date)
  have hname' :=
    isName_fileName destination' request'.date.year (profile.calendar.period request'.date)
  have hbytes : destination.fileName request.date.year (profile.calendar.period request.date) =
      destination'.fileName request'.date.year (profile.calendar.period request'.date) →
        batch.render.text.toUTF8 = batch'.render.text.toUTF8 := by
    intro heq
    rw [ResolvedProfile.batch_eq_of_fileName heq, hextend'] at hextend
    cases hextend
    rfl
  have hsaved := saveIn_comm (houtput ▸ houtput' ▸ siblings_join settings.outputDir hname hname')
    (houtput ▸ endsIn_join _ hname) (houtput' ▸ endsIn_join _ hname') hbytes tree
  exact ⟨hsaved.1, hsaved.2.map _ _⟩

theorem outcome_repeated {settings : Settings} {request : Request} {tree after : FileTree}
    {report : Report} (h : outcome settings request tree = (.ok report, after))
    (hapart : after.Apart request.input report.output) :
    outcome settings request after = (.ok report, after) := by
  rw [outcome_eq] at h ⊢
  rcases hprepare : prepare settings request (decodeFound request.input (tree.read request.input))
    with error | ⟨prepared, payload⟩
  · rw [hprepare] at h
    cases h
  · rw [hprepare, carryOut] at h
    rcases hsave : saveIn prepared.output payload.text.toUTF8 tree with ⟨_ | _, saved⟩
    · rw [hsave] at h
      cases h
    · rw [hsave] at h
      cases h
      have hinput := decodeFound_saveIn payload.text.toUTF8 hprepare
      rw [hsave] at hinput
      rw [hinput hapart, hprepare, carryOut, saveIn_again hsave]
      rfl

/-- **Runs can be repeated and reordered.**  A run that succeeded and whose output is not its input
succeeds again with an equal report and leaves the files as they are.  Two runs with one input, which
both write to the directory of the settings and do not write over the input, leave the same files in
either order, and each says the same in either order; but where something other than a directory is
in the way of that directory, both may fail in either order with a reason that tells which of them
came first (`InEitherOrder.blocked`).  All this is said of trees of files and directories: what links,
permissions, a full disk, or a path that names the tree's own directory anew would do is left out. -/
theorem runs_repeat_and_commute (settings : Settings) (tree : FileTree) :
    (∀ request report after, outcome settings request tree = (.ok report, after) →
      after.Apart request.input report.output →
        outcome settings request after = (.ok report, after)) ∧
    ∀ (input : String) (first second : String × Date),
      let request (job : String × Date) : Request := ⟨job.1, job.2, input, none⟩
      let alone (job : String × Date) := outcome settings (request job) tree
      let later (job earlier : String × Date) := outcome settings (request job) (alone earlier).2
      (∀ job ∈ [first, second], ∀ profile destination,
        Opened settings (request job) profile destination →
          (alone job).2.Apart input (outputPath settings (request job) profile destination)) →
        Same (later second first).2 (later first second).2 ∧
          InEitherOrder (alone first).1 (alone second).1 (later first second).1
            (later second first).1 := by
  refine ⟨fun request report after => outcome_repeated, ?_⟩
  intro input first second request alone later hapart
  have hlater (job earlier : String × Date) (hmem : earlier ∈ [first, second]) :
      later job earlier =
        carryOut (prepare settings (request job) (decodeFound input (tree.read input)))
          (alone earlier).2 := by
    have hinput : decodeFound input ((alone earlier).2.read input) =
        decodeFound input (tree.read input) :=
      decodeFound_outcome (request earlier) (hapart earlier hmem)
    rw [← hinput]
    exact outcome_eq settings (request job) (alone earlier).2
  have halone (job : String × Date) : alone job =
      carryOut (prepare settings (request job) (decodeFound input (tree.read input))) tree :=
    outcome_eq settings (request job) tree
  rw [hlater second first (by simp), hlater first second (by simp), halone, halone]
  exact carryOut_comm rfl rfl tree

/-- A journal and a statement in a directory that is missing at first. -/
theorem runs_repeat_and_commute_in_office :
    let d : Date := ⟨2024, 5, 6, by decide⟩
    let journal : Request := ⟨"GL", d, "in.json", none⟩
    let statement : Request := ⟨"statement", d, "in.json", none⟩
    let written := outcome {} journal officeTree
    let writtenToo := outcome {} statement officeTree
    (∃ report, written.1 = .ok report ∧ outcome {} journal written.2 = (.ok report, written.2)) ∧
      Same (outcome {} statement written.2).2 (outcome {} journal writtenToo.2).2 ∧
      InEitherOrder written.1 writtenToo.1 (outcome {} journal writtenToo.2).1
        (outcome {} statement written.2).1 := by
  intro d journal statement written writtenToo
  obtain ⟨hrepeat, hcommute⟩ := runs_repeat_and_commute {} officeTree
  have hprofile : ({} : Settings).profile.resolve = .ok ⟨"CoverApp", .calendarYear, .standard⟩ :=
    rfl
  refine ⟨?_, hcommute "in.json" ("GL", d) ("statement", d) ?_⟩
  · have hreport : written.1 = .ok ⟨.generalLedger, "exports/general_ledger_2024_05.csv",
        ⟨2, some (.ofParts true 143 2 (by decide) (by decide))⟩, 3⟩ := by decide +kernel
    refine ⟨_, hreport, hrepeat journal _ written.2 (Prod.ext hreport rfl) (apart_of_ne ?_)⟩
    decide +kernel
  · intro job hjob profile destination opened
    cases hprofile.symm.trans opened.profile
    rcases List.mem_pair.mp hjob with rfl | rfl
    · have hjournal : Destination.parse "GL" = .ok .generalLedger := by decide +kernel
      cases hjournal.symm.trans opened.destination
      exact apart_of_ne (by decide +kernel)
    · have hstatement : Destination.parse "statement" = .ok .policyholderStatement := by
        decide +kernel
      cases hstatement.symm.trans opened.destination
      exact apart_of_ne (by decide +kernel)

/-- Settings with a directory that is named by way of one that is missing. -/
def detour : Settings :=
  { outputDir := "x/../y/z" }

/-- A directory with an input, and with a file where `detour` wants a directory. -/
def fileInTheWay : FileTree :=
  ⟨[(["y"], .file "text".toUTF8), (["in.json"], .file "[]".toUTF8)]⟩

/-- **The order of two runs can be told from what they say**: the first one is told that a file
exists, and makes a directory, through which the second one comes to that file. -/
theorem order_of_runs_is_told :
    let d : Date := ⟨2020, 9, 30, by decide⟩
    let journal : Request := ⟨"gl", d, "in.json", none⟩
    let statement : Request := ⟨"statement", d, "in.json", none⟩
    (∀ request ∈ [journal, statement], ∀ profile destination,
      Opened detour request profile destination →
        (outcome detour request fileInTheWay).2.Apart "in.json"
          (outputPath detour request profile destination)) ∧
      (outcome detour journal fileInTheWay).1 = .error (.unwritable "x/../y/z" .alreadyExists) ∧
      (outcome detour journal (outcome detour statement fileInTheWay).2).1 =
        .error (.unwritable "x/../y/z" .notDirectory) ∧
      ¬ (outcome detour journal fileInTheWay).1 =
        (outcome detour journal (outcome detour statement fileInTheWay).2).1 := by
  intro d journal statement
  have hprofile : detour.profile.resolve = .ok ⟨"CoverApp", .calendarYear, .standard⟩ := rfl
  have hfirst : (outcome detour journal fileInTheWay).1 =
      .error (.unwritable "x/../y/z" .alreadyExists) := by decide +kernel
  have hlater : (outcome detour journal (outcome detour statement fileInTheWay).2).1 =
      .error (.unwritable "x/../y/z" .notDirectory) := by decide +kernel
  refine ⟨?_, hfirst, hlater, ?_⟩
  · intro request hrequest profile destination opened
    cases hprofile.symm.trans opened.profile
    rcases List.mem_pair.mp hrequest with rfl | rfl
    · have hjournal : Destination.parse "gl" = .ok .generalLedger := by decide +kernel
      cases hjournal.symm.trans opened.destination
      exact apart_of_ne (by decide +kernel)
    · have hstatement : Destination.parse "statement" = .ok .policyholderStatement := by
        decide +kernel
      cases hstatement.symm.trans opened.destination
      exact apart_of_ne (by decide +kernel)
  · rw [hfirst, hlater]
    decide

end Posting
