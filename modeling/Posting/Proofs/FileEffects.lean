import Posting.Proofs.FileTrees
import Posting.Proofs.Results

/-! # What file operations do to a tree

File operations may fail for reasons that a tree does not show, such as a missing permission.
`Access.Hosted` says that this is all that sets them apart from those of the tree: an operation that
succeeds does what the tree's own does, and one that fails changes nothing.  `FileTree.access` is
the plainest example.

Then reading a text changes nothing (`Hosted.readText`), and making the directories above a place
adds directories there and nothing else (`Hosted.makeDirectories`). -/

namespace Posting.Files

theorem toUTF8_of_fromUTF8? {bytes : ByteArray} {text : String}
    (h : String.fromUTF8? bytes = some text) : text.toUTF8 = bytes := by
  unfold String.fromUTF8? at h
  split at h
  · cases h
    rfl
  · cases h

/-- A change of a tree that is made as a whole, or not at all. -/
def Atomic (operation : StateM FileTree (Except FileError Unit))
    (change : FileTree → Except FileError FileTree) : Prop :=
  ∀ tree, (∃ after, change tree = .ok after ∧ operation.run tree = (.ok (), after)) ∨
    ∃ error, operation.run tree = (.error error, tree)

namespace Access

/-- File operations that do what those of the tree do, or fail and do nothing. -/
structure Hosted (access : Access (StateM FileTree)) : Prop where
  read : ∀ path tree, ∃ result, (access.read path).run tree = (result, tree) ∧
    ∀ bytes, result = .ok bytes → tree.read path = .ok bytes
  isDirectory : ∀ path tree, ∃ result, (access.isDirectory path).run tree = (result, tree) ∧
    (result = true → tree.isDirectory path = true)
  makeDirectory : ∀ path, Atomic (access.makeDirectory path) (·.makeDirectory path)
  write : ∀ path bytes, Atomic (access.write path bytes) (·.write path bytes)

end Access

theorem FileTree.run_update (change : FileTree → Except FileError FileTree) (tree : FileTree) :
    (update change).run tree =
      match change tree with
      | .ok after => (.ok (), after)
      | .error error => (.error error, tree) := by
  rw [update, StateT.run_modifyGet]
  cases change tree <;> rfl

theorem FileTree.atomic_update (change : FileTree → Except FileError FileTree) :
    Atomic (update change) change := by
  intro tree
  rw [run_update]
  cases change tree with
  | ok after => exact Or.inl ⟨after, rfl, rfl⟩
  | error error => exact Or.inr ⟨error, rfl⟩

theorem FileTree.hosted_access : FileTree.access.Hosted where
  read path tree := ⟨tree.read path, rfl, fun _ h => h⟩
  isDirectory path tree := ⟨tree.isDirectory path, rfl, fun h => h⟩
  makeDirectory path := atomic_update (·.makeDirectory path)
  write path bytes := atomic_update (·.write path bytes)

namespace Access.Hosted

variable {access : Access (StateM FileTree)} (hosted : access.Hosted)
include hosted

/-! ### Reading -/

theorem readText {tree after : FileTree} {path : String} {result : Except FileError String}
    (h : (access.readText path).run tree = (result, after)) :
    after = tree ∧ ∀ text, result = .ok text → tree.read path = .ok text.toUTF8 := by
  obtain ⟨found, hread, hfound⟩ := hosted.read path tree
  rw [Access.readText, run_bind_eq, hread] at h
  cases found with
  | error error =>
      cases h
      exact ⟨rfl, nofun⟩
  | ok bytes =>
      simp only at h
      split at h
      · next text hdecoded =>
          cases h
          refine ⟨rfl, ?_⟩
          rintro _ ⟨⟩
          rw [toUTF8_of_fromUTF8? hdecoded]
          exact hfound bytes rfl
      · cases h
        exact ⟨rfl, nofun⟩

/-! ### Directories -/

theorem run_isDirectory (path : String) (tree : FileTree) :
    ((access.isDirectory path).run tree).2 = tree := by
  obtain ⟨_, hrun, -⟩ := hosted.isDirectory path tree
  rw [hrun]

theorem makeDirectory_grown {path : String} {paths : List String} (hpath : path ∈ paths)
    (tree : FileTree) :
    FileTree.Grown paths tree ((access.makeDirectory path).run tree).2 := by
  rcases hosted.makeDirectory path tree with ⟨made, hmake, hrun⟩ | ⟨error, hrun⟩
  · rw [hrun]
    exact FileTree.grown_of_makeDirectory hmake hpath
  · rw [hrun]
    exact .refl paths tree

/-- The directories that are missing are among those asked for, and one of them may be made. -/
theorem missingDirectories {paths upward missing : List String}
    (hupward : ∀ path ∈ upward, path ∈ paths) (hmissing : ∀ path ∈ missing, path ∈ paths)
    {tree after : FileTree} {result : Except FileError (List String)}
    (h : (access.missingDirectories upward missing).run tree = (result, after)) :
    FileTree.Grown paths tree after ∧
      ∀ found, result = .ok found → ∀ path ∈ found, path ∈ paths := by
  induction upward generalizing missing tree with
  | nil =>
      cases h
      refine ⟨.refl paths _, ?_⟩
      rintro _ ⟨⟩
      exact hmissing
  | cons path upward ih =>
      have hpath := hupward path List.mem_cons_self
      have hgrown := hosted.makeDirectory_grown hpath tree
      rw [Access.missingDirectories, run_bind_eq] at h
      split at h
      · cases h
        refine ⟨hgrown, ?_⟩
        rintro _ ⟨⟩
        exact hmissing
      · have hmore : ∀ other ∈ path :: missing, other ∈ paths :=
          List.forall_mem_cons.mpr ⟨hpath, hmissing⟩
        obtain ⟨hrest, hfound⟩ :=
          ih (fun other hother => hupward other (List.mem_cons_of_mem path hother)) hmore h
        exact ⟨hgrown.trans hrest, hfound⟩
      · rw [run_bind_eq, hosted.run_isDirectory] at h
        split at h
        · cases h
          refine ⟨hgrown, ?_⟩
          rintro _ ⟨⟩
          exact hmissing
        · cases h
          exact ⟨hgrown, nofun⟩
      · cases h
        exact ⟨hgrown, nofun⟩

theorem makeAll {paths below : List String} (hbelow : ∀ path ∈ below, path ∈ paths)
    {tree after : FileTree} {result : Except FileError Unit}
    (h : (access.makeAll below).run tree = (result, after)) :
    FileTree.Grown paths tree after := by
  induction below generalizing tree with
  | nil =>
      cases h
      exact .refl paths _
  | cons path below ih =>
      have hgrown := hosted.makeDirectory_grown (hbelow path List.mem_cons_self) tree
      have hrest := fun other hother => hbelow other (List.mem_cons_of_mem path hother)
      rw [Access.makeAll, run_bind_eq] at h
      split at h
      · exact hgrown.trans (ih hrest h)
      · rw [run_bind_eq, hosted.run_isDirectory] at h
        split at h
        · exact hgrown.trans (ih hrest h)
        · cases h
          exact hgrown
      · cases h
        exact hgrown

/-- **Making a directory and those above it adds such directories and nothing else**, also if it
fails. -/
theorem makeDirectories {tree after : FileTree} {path : String} {result : Except FileError Unit}
    (h : (access.makeDirectories path).run tree = (result, after)) :
    FileTree.Grown (ancestors path) tree after := by
  rw [Access.makeDirectories, run_bind_eq] at h
  rcases hrun : (access.missingDirectories (ancestors path) []).run tree with ⟨found, between⟩
  have hnone : ∀ other ∈ ([] : List String), other ∈ ancestors path := nofun
  obtain ⟨hgrown, hfound⟩ := hosted.missingDirectories (fun _ hpath => hpath) hnone hrun
  rw [hrun] at h
  split at h
  · next missing hmissing => exact hgrown.trans (hosted.makeAll (hfound missing hmissing) h)
  · cases h
    exact hgrown

end Access.Hosted

end Posting.Files
