import Posting.Proofs.FileEffects

/-! # Directories made again

Making a directory with those above it, on a tree of files.  `makePath` does it by recursion on the
paths from the longest to the shortest, and `run_makeDirectories` says that this is what the file
operations of a tree do.

* Where it succeeds, it succeeds again and changes nothing (`makePath_of_keeps`).
* Where it fails, it fails again and changes nothing (`stuck_of_makePath`).  The reason is the same
  but for one: what exists already where a directory is to be made is, the next time, what is not a
  directory on the way (`Follows`). -/

namespace Posting.Files

/-- The reasons for which something fails again: the same one, but that what existed already is then
not a directory. -/
def Follows (first again : FileError) : Prop :=
  again = first ∨ first = .alreadyExists ∧ again = .notDirectory

namespace FileTree

/-! ### Making directories -/

/-- What a step with a tree leaves, followed by another step if it succeeds. -/
def andThen (step : Except FileError Unit × FileTree)
    (next : FileTree → Except FileError Unit × FileTree) : Except FileError Unit × FileTree :=
  match step with
  | (.ok (), tree) => next tree
  | failed => failed

theorem andThen_assoc (step : Except FileError Unit × FileTree)
    (next last : FileTree → Except FileError Unit × FileTree) :
    andThen (andThen step next) last = andThen step (fun tree => andThen (next tree) last) := by
  rcases step with ⟨_ | _, tree⟩ <;> rfl

/-- Makes a directory, unless it is there. -/
def makeOrFind (path : String) (tree : FileTree) : Except FileError Unit × FileTree :=
  match tree.makeDirectory path with
  | .ok made => (.ok (), made)
  | .error .alreadyExists =>
    if tree.isDirectory path then (.ok (), tree) else (.error .alreadyExists, tree)
  | .error error => (.error error, tree)

/-- Makes the directory of the first of some paths; if one above it is missing, makes those of the
others before. -/
def makePath : List String → FileTree → Except FileError Unit × FileTree
  | [], tree => (.ok (), tree)
  | path :: above, tree =>
    match tree.makeDirectory path with
    | .error .notFound => andThen (makePath above tree) (makeOrFind path)
    | _ => makeOrFind path tree

section

variable {path : String} {above : List String} {tree : FileTree}

theorem makePath_of_missing (h : tree.makeDirectory path = .error .notFound) :
    makePath (path :: above) tree = andThen (makePath above tree) (makeOrFind path) := by
  rw [makePath, h]

theorem makePath_of_not_missing (h : tree.makeDirectory path ≠ .error .notFound) :
    makePath (path :: above) tree = makeOrFind path tree := by
  rw [makePath]
  split
  · next hmissing => exact absurd hmissing h
  · rfl

end

theorem run_makeDirectory (path : String) (tree : FileTree) :
    (access.makeDirectory path).run tree =
      match tree.makeDirectory path with
      | .ok made => (.ok (), made)
      | .error error => (.error error, tree) :=
  run_update (·.makeDirectory path) tree

theorem run_ifDirectory {α : Type} (path : String) (tree : FileTree)
    (next other : StateM FileTree α) :
    (do if ← access.isDirectory path then next else other : StateM FileTree α).run tree =
      (if tree.isDirectory path = true then next else other).run tree :=
  rfl

theorem run_makeAll_cons (path : String) (below : List String) (tree : FileTree) :
    (access.makeAll (path :: below)).run tree =
      andThen (makeOrFind path tree) (access.makeAll below).run := by
  rw [Access.makeAll, run_bind_eq, run_makeDirectory, makeOrFind]
  cases tree.makeDirectory path with
  | ok made => rfl
  | error error =>
      cases error with
      | alreadyExists =>
          refine (run_ifDirectory path tree _ _).trans ?_
          cases tree.isDirectory path <;> rfl
      | _ => rfl

theorem run_missingDirectories_of_missing {path : String} {above missing : List String}
    {tree : FileTree} (h : tree.makeDirectory path = .error .notFound) :
    (access.missingDirectories (path :: above) missing).run tree =
      (access.missingDirectories above (path :: missing)).run tree := by
  rw [Access.missingDirectories, run_bind_eq, run_makeDirectory, h]

theorem run_missingDirectories_of_not_missing {path : String} {above missing : List String}
    {tree : FileTree} (h : tree.makeDirectory path ≠ .error .notFound) :
    (access.missingDirectories (path :: above) missing).run tree =
      ((makeOrFind path tree).1.map (fun _ => missing), (makeOrFind path tree).2) := by
  rw [Access.missingDirectories, run_bind_eq, run_makeDirectory, makeOrFind]
  cases hmake : tree.makeDirectory path with
  | ok made => rfl
  | error error =>
      cases error with
      | notFound => exact absurd hmake h
      | alreadyExists =>
          refine (run_ifDirectory path tree _ _).trans ?_
          cases tree.isDirectory path <;> rfl
      | _ => rfl

/-- The missing directories are found upwards, and then made downwards. -/
theorem run_missingDirectories (upward missing : List String) (tree : FileTree) :
    (do
      match ← access.missingDirectories upward missing with
      | .ok missing => access.makeAll missing
      | .error error => return .error error :
        StateM FileTree (Except FileError Unit)).run tree =
      andThen (makePath upward tree) (access.makeAll missing).run := by
  induction upward generalizing missing tree with
  | nil => rfl
  | cons path above ih =>
      by_cases hmissing : tree.makeDirectory path = .error .notFound
      · rw [makePath_of_missing hmissing, andThen_assoc, ← funext (run_makeAll_cons path missing),
          ← ih (path :: missing) tree, run_bind_eq, run_bind_eq,
          run_missingDirectories_of_missing hmissing]
      · rw [makePath_of_not_missing hmissing, run_bind_eq,
          run_missingDirectories_of_not_missing hmissing]
        rcases makeOrFind path tree with ⟨_ | _, made⟩ <;> rfl

theorem run_makeDirectories (path : String) (tree : FileTree) :
    (access.makeDirectories path).run tree = makePath (ancestors path) tree := by
  refine (run_missingDirectories (ancestors path) [] tree).trans ?_
  rcases makePath (ancestors path) tree with ⟨_ | _, made⟩ <;> rfl

theorem grown_of_makePath {path : String} {tree after : FileTree} {result : Except FileError Unit}
    (h : makePath (uppers path) tree = (result, after)) : Grown (uppers path) tree after := by
  unfold uppers at h ⊢
  split at h
  · cases h
    exact .refl _ _
  · rw [← run_makeDirectories] at h
    exact hosted_access.makeDirectories h

/-! ### Directories that are there -/

section

variable {path : String} {above : List String} {tree made later : FileTree}

theorem makeDirectory_of_isDirectory (h : tree.isDirectory path = true) :
    tree.makeDirectory path = .error .alreadyExists := by
  obtain ⟨place, hlocate, hfind⟩ := (isDirectory_eq_true_iff _ _).mp h
  rw [makeDirectory, hlocate, ok_bind, hfind, ok_bind]

theorem makeOrFind_of_isDirectory (h : tree.isDirectory path = true) :
    makeOrFind path tree = (.ok (), tree) := by
  rw [makeOrFind, makeDirectory_of_isDirectory h]
  simp only
  rw [if_pos h]

theorem isDirectory_of_makeDirectory (h : tree.makeDirectory path = .ok made) :
    made.isDirectory path = true := by
  have hkeeps := (grown_of_makeDirectory h (List.mem_singleton_self path)).keeps
  unfold makeDirectory at h
  obtain ⟨place, hlocate, h⟩ := bind_eq_ok_iff.mp h
  obtain ⟨found, hfind, h⟩ := bind_eq_ok_iff.mp h
  obtain ⟨hshort, hget⟩ := (find_eq_ok_iff _ _ _).mp hfind
  cases found with
  | some node => cases h
  | none =>
      cases h
      refine (isDirectory_eq_true_iff _ _).mpr ⟨place, hkeeps.locate hlocate, ?_⟩
      exact (find_eq_ok_iff _ _ _).mpr ⟨hshort, get?_set_self (by rw [hget]; exact nofun) _⟩

theorem isDirectory_of_makeOrFind (h : makeOrFind path tree = (.ok (), made)) :
    made.isDirectory path = true := by
  unfold makeOrFind at h
  split at h
  · next hmake =>
      cases h
      exact isDirectory_of_makeDirectory hmake
  · split at h
    · next hfound =>
        cases h
        exact hfound
    · cases h
  · cases h

theorem of_andThen_eq_ok {step : Except FileError Unit × FileTree}
    {next : FileTree → Except FileError Unit × FileTree} (h : andThen step next = (.ok (), made)) :
    ∃ between, step = (.ok (), between) ∧ next between = (.ok (), made) := by
  rcases step with ⟨_ | _, between⟩
  · cases h
  · exact ⟨between, rfl, h⟩

theorem isDirectory_of_makePath (h : makePath (path :: above) tree = (.ok (), made)) :
    made.isDirectory path = true := by
  by_cases hmissing : tree.makeDirectory path = .error .notFound
  · rw [makePath_of_missing hmissing] at h
    obtain ⟨between, -, h⟩ := of_andThen_eq_ok h
    exact isDirectory_of_makeOrFind h
  · rw [makePath_of_not_missing hmissing] at h
    exact isDirectory_of_makeOrFind h

end

theorem makePath_of_keeps {paths : List String} {tree made later : FileTree}
    (h : makePath paths tree = (.ok (), made)) (hkeeps : Keeps made later) :
    makePath paths later = (.ok (), later) := by
  cases paths with
  | nil => rfl
  | cons path above =>
      have hfound := hkeeps.isDirectory (isDirectory_of_makePath h)
      rw [makePath_of_not_missing (by rw [makeDirectory_of_isDirectory hfound]; exact nofun)]
      exact makeOrFind_of_isDirectory hfound

/-! ### Directories that cannot be made -/

theorem enter_ne_alreadyExists (tree : FileTree) (directory : List String) (name : String) :
    tree.enter directory name ≠ .error .alreadyExists := by
  unfold enter
  repeat' split
  all_goals exact nofun

theorem walk_ne_alreadyExists (tree : FileTree) (directory names : List String) :
    tree.walk directory names ≠ .error .alreadyExists := by
  induction names generalizing directory with
  | nil => exact nofun
  | cons name names ih =>
      rw [walk, List.foldlM_cons]
      cases hnext : tree.enter directory name with
      | error error =>
          rintro ⟨⟩
          exact tree.enter_ne_alreadyExists directory name hnext
      | ok next => exact ih next

theorem walk_append_of_error {tree : FileTree} {directory front : List String} {error : FileError}
    (h : tree.walk directory front = .error error) (back : List String) :
    tree.walk directory (front ++ back) = .error error := by
  rw [walk, List.foldlM_append, ← walk, h]
  rfl

section

variable {path upper : String} {tree after : FileTree} {error : FileError}

/-- A fault on the way to a path is one on the way to all that lies below it. -/
theorem walk_of_above (habove : Above upper path)
    (hwalk : tree.walk (start upper) (segments upper.toList) = .error error) :
    tree.walk (start path) (segments path.toList) = .error error := by
  obtain ⟨below, -, hsegments⟩ := habove.names
  rw [hsegments, ← start_of_above habove]
  exact walk_append_of_error hwalk below

theorem makeDirectory_of_above (hpath : IsPath path) (habove : Above upper path)
    (hwalk : tree.walk (start upper) (segments upper.toList) = .error error) :
    tree.makeDirectory path = .error error := by
  obtain ⟨below, hne, hsegments⟩ := habove.names
  rw [makeDirectory, locate_eq tree hpath, hsegments, List.dropLast_append_of_ne_nil hne,
    ← start_of_above habove, walk_append_of_error hwalk]
  rfl

theorem isPath_of_missing (hne : path ≠ "") (h : tree.makeDirectory path = .error .notFound) :
    IsPath path := by
  by_contra hpath
  obtain ⟨error, hother, herror⟩ := exists_locate_eq_error hpath
  rw [makeDirectory, herror] at h
  cases h
  exact hother hne rfl

theorem of_makeOrFind_eq_error (h : makeOrFind path tree = (.error error, after)) :
    after = tree ∧ tree.makeDirectory path = .error error := by
  unfold makeOrFind at h
  split at h
  · cases h
  · next hmake =>
      split at h
      · cases h
      · cases h
        exact ⟨rfl, hmake⟩
  · next hmake =>
      cases h
      exact ⟨rfl, hmake⟩

theorem makeOrFind_of_error (hmake : tree.makeDirectory path = .error error)
    (hother : error ≠ .alreadyExists) : makeOrFind path tree = (.error error, tree) := by
  rw [makeOrFind, hmake]
  split
  · next h => cases h
  · next h =>
      cases h
      exact absurd rfl hother
  · next h =>
      cases h
      rfl

theorem enter_eq_find (tree : FileTree) (directory : List String) {name : String}
    (hdots : ¬ (name = "." ∨ name = "..")) (slash : Bool) :
    tree.enter directory name =
      match tree.find ⟨directory, some name, slash⟩ with
      | .error error => .error error
      | .ok none => .error .notFound
      | .ok (some (.file _)) => .error .notDirectory
      | .ok (some .directory) => .ok (directory ++ [name]) := by
  rw [not_or] at hdots
  have hnames : Place.names ⟨directory, some name, slash⟩ = directory ++ [name] := rfl
  rw [enter, if_neg hdots.1, if_neg hdots.2, find, Option.getD_some, hnames]
  by_cases hlong : 255 < name.utf8ByteSize
  · rw [if_pos hlong, if_pos hlong]
  · rw [if_neg hlong, if_neg hlong]
    rcases tree.get? (directory ++ [name]) with _ | _ | _ <;> rfl

/-- Where a directory cannot be made, the way to it has a fault of the same kind. -/
theorem walk_of_makeOrFind (hpath : IsPath path)
    (h : makeOrFind path tree = (.error error, after)) :
    ∃ fault, Follows error fault ∧
      tree.walk (start path) (segments path.toList) = .error fault := by
  obtain ⟨-, hmake⟩ := of_makeOrFind_eq_error h
  have hno : ∀ directory, tree.walk (start path) (segments path.toList) ≠ .ok directory := by
    intro directory hwalk
    rw [makeOrFind_of_isDirectory (isDirectory_of_walk hpath hwalk)] at h
    cases h
  rw [makeDirectory, locate_eq tree hpath] at hmake
  rcases List.eq_nil_or_concat' (segments path.toList) with hnil | ⟨front, name, hconcat⟩
  · exact absurd (by rw [hnil]; rfl) (hno (start path))
  rw [hconcat] at hno ⊢
  rw [hconcat, List.dropLast_concat] at hmake
  cases hfront : tree.walk (start path) front with
  | error fault =>
      rw [hfront] at hmake
      cases hmake
      exact ⟨_, Or.inl rfl, walk_append_of_error hfront [name]⟩
  | ok directory =>
      -- the name itself is at fault: it is too long, or that of a file
      have hlast : tree.walk (start path) (front ++ [name]) = tree.enter directory name := by
        rw [walk, List.foldlM_append, ← walk, hfront, ok_bind, List.foldlM_cons]
        exact bind_pure _
      rw [hlast] at hno ⊢
      have hdots : ¬ (name = "." ∨ name = "..") := by
        rintro (rfl | rfl)
        · exact hno directory rfl
        · exact hno (FileTree.above directory) rfl
      rw [hfront, ok_bind, finish, hconcat, List.getLast?_concat] at hmake
      simp only at hmake
      rw [if_neg hdots, ok_bind] at hmake
      let place : Place := ⟨directory, some name, path.toList.getLast? = some '/'⟩
      rw [enter_eq_find tree directory hdots place.slash] at hno ⊢
      rcases hfind : tree.find place with _ | _ | _ | _ <;> rw [hfind] at hmake hno
      · cases hmake
        exact ⟨_, Or.inl rfl, rfl⟩
      · cases hmake
      · cases hmake
        exact ⟨.notDirectory, Or.inr ⟨rfl, rfl⟩, rfl⟩
      · exact absurd rfl (hno (directory ++ [name]))

/-- A tree where making the directory of the first of some paths, which has failed, fails again and
changes nothing, for the way to that path has a fault. -/
structure Stuck (paths : List String) (error : FileError) (tree : FileTree) : Prop where
  again : ∃ again, Follows error again ∧ makePath paths tree = (.error again, tree)
  fault : ∀ path ∈ paths.head?, IsPath path → ∃ fault, Follows error fault ∧
    tree.walk (start path) (segments path.toList) = .error fault

variable {above rest : List String}

/-- A path that is at fault itself, once those above it are there. -/
theorem stuck_of_makeOrFind (h : makeOrFind path tree = (.error error, tree))
    (habove : tree.makeDirectory path = .error .notFound → makePath above tree = (.ok (), tree)) :
    Stuck (path :: above) error tree := by
  refine ⟨⟨error, Or.inl rfl, ?_⟩, ?_⟩
  · by_cases hmissing : tree.makeDirectory path = .error .notFound
    · rw [makePath_of_missing hmissing, habove hmissing]
      exact h
    · rw [makePath_of_not_missing hmissing, h]
  · rintro _ ⟨⟩ hpath
    exact walk_of_makeOrFind hpath h

/-- A path at fault stands in the way of those below it. -/
theorem Stuck.below (h : Stuck (upper :: rest) error tree) (hpath : IsPath path)
    (habove : Above upper path) : Stuck (path :: upper :: rest) error tree := by
  obtain ⟨again, hfollows, hagain⟩ := h.again
  obtain ⟨fault, hfault, hwalk⟩ := h.fault upper rfl (hpath.of_above habove)
  have hmake := makeDirectory_of_above hpath habove hwalk
  refine ⟨?_, ?_⟩
  · by_cases hmissing : fault = .notFound
    · refine ⟨again, hfollows, ?_⟩
      rw [makePath_of_missing (hmissing ▸ hmake), hagain]
      rfl
    · refine ⟨fault, hfault, ?_⟩
      rw [makePath_of_not_missing (by simpa [hmake] using hmissing)]
      refine makeOrFind_of_error hmake ?_
      rintro rfl
      exact walk_ne_alreadyExists _ _ _ hwalk
  · rintro _ ⟨⟩ -
    exact ⟨fault, hfault, walk_of_above habove hwalk⟩

end

/-- **Directories that cannot be made cannot be made later either.**  What was made above them stays,
and nothing is added. -/
theorem stuck_of_makePath {paths : List String}
    (hchain : paths.IsChain (fun path upper => Above upper path)) {tree after : FileTree}
    {error : FileError} (h : makePath paths tree = (.error error, after)) :
    Stuck paths error after := by
  induction paths generalizing tree after error with
  | nil => cases h
  | cons path above ih =>
      obtain ⟨hhead, hrest⟩ := List.isChain_cons.mp hchain
      by_cases hmissing : tree.makeDirectory path = .error .notFound
      · rw [makePath_of_missing hmissing] at h
        rcases hmade : makePath above tree with ⟨_ | _, between⟩
        · rw [hmade] at h
          cases h
          cases above with
          | nil => cases hmade
          | cons upper rest =>
              have habove : Above upper path := hhead upper rfl
              have hpath := isPath_of_missing habove.below_ne_empty hmissing
              exact (ih hrest hmade).below hpath habove
        · rw [hmade] at h
          obtain ⟨rfl, -⟩ := of_makeOrFind_eq_error h
          exact stuck_of_makeOrFind h (fun _ => makePath_of_keeps hmade (.refl _))
      · rw [makePath_of_not_missing hmissing] at h
        obtain ⟨rfl, -⟩ := of_makeOrFind_eq_error h
        exact stuck_of_makeOrFind h (fun hnow => absurd hnow hmissing)

end FileTree

end Posting.Files
