import Posting.Files.Tree
import Posting.Proofs.FilePaths
import Posting.Proofs.Results

/-! # Changes of file trees

What lies where in a tree before and after an operation on it.

* `get?_set` is the look-up after one thing was put somewhere.
* A tree `Keeps` the directories of another one; then every path leads to the same place in both
  (`Keeps.locate`).
* `Grown` trees have new directories and nothing else; making a directory is a step of that kind
  (`grown_of_makeDirectory`), and such steps add up (`Grown.trans`).
* `of_write`: what is written is read back, and all else is as before.
* `isDirectory_of_above`: the paths above a place that is found are directories. -/

namespace Posting.Files.FileTree

/-! ### Looking up -/

theorem lookup_cons_ite (place other : List String) (node : Node)
    (nodes : List (List String × Node)) :
    ((place, node) :: nodes).lookup other = if other = place then some node else nodes.lookup other := by
  by_cases h : other = place
  · rw [if_pos h, List.lookup_cons, beq_iff_eq.mpr h]
  · rw [if_neg h, List.lookup_cons, beq_false_of_ne h]

theorem lookup_put (names other : List String) (node : Node)
    (nodes : List (List String × Node)) :
    (put names node nodes).lookup other =
      if other = names then some node else nodes.lookup other := by
  induction nodes with
  | nil => rw [put, lookup_cons_ite]
  | cons entry rest ih =>
      obtain ⟨place, old⟩ := entry
      rw [put]
      by_cases hplace : place = names
      · subst hplace
        rw [if_pos rfl, lookup_cons_ite, lookup_cons_ite]
        by_cases h : other = place <;> simp [h]
      · rw [if_neg hplace, lookup_cons_ite, lookup_cons_ite, ih]
        by_cases h : other = place
        · rw [if_pos h, if_pos h, if_neg (h.trans_ne hplace)]
        · rw [if_neg h, if_neg h]

/-- What is put somewhere is found there, unless it is a directory that is always given. -/
theorem get?_set (tree : FileTree) (names other : List String) (node : Node) :
    (tree.set names node).get? other =
      if isGiven other then some .directory
      else if other = names then some node else tree.get? other := by
  unfold get? set
  by_cases h : isGiven other
  · rw [if_pos h, if_pos h]
  · rw [if_neg h, if_neg h, if_neg h, lookup_put]

theorem get?_of_isGiven (tree : FileTree) {names : List String} (h : isGiven names = true) :
    tree.get? names = some .directory :=
  if_pos h

theorem get?_set_self {tree : FileTree} {names : List String}
    (h : tree.get? names ≠ some .directory) (node : Node) :
    (tree.set names node).get? names = some node := by
  have hgiven : ¬ isGiven names = true := fun hgiven => h (tree.get?_of_isGiven hgiven)
  rw [get?_set, if_neg hgiven, if_pos rfl]

theorem get?_set_of_ne (tree : FileTree) {names other : List String} (h : other ≠ names)
    (node : Node) : (tree.set names node).get? other = tree.get? other := by
  rw [get?_set, if_neg h]
  split
  · next hgiven => exact (tree.get?_of_isGiven hgiven).symm
  · rfl

/-! ### Finding places -/

/-- The directory that names lead to from a directory. -/
def walk (tree : FileTree) (directory : List String) (names : List String) :
    Except FileError (List String) :=
  names.foldlM tree.enter directory

def start (path : String) : List String :=
  if path.toList.head? = some '/' then root else []

/-- The place of a path that ends in a directory, given that directory. -/
def finish (tree : FileTree) (path : String) (directory : List String) : Except FileError Place :=
  let slash := path.toList.getLast? = some '/'
  match (segments path.toList).getLast? with
  | none => .ok ⟨directory, none, slash⟩
  | some name =>
    if name = "." ∨ name = ".." then do
      .ok ⟨← tree.enter directory name, none, slash⟩
    else .ok ⟨directory, some name, slash⟩

/-- A text that can be a path. -/
structure IsPath (path : String) : Prop where
  noNul : path.toList.contains (Char.ofNat 0) = false
  ne_empty : path.isEmpty = false
  short : ¬ 4096 ≤ path.utf8ByteSize

theorem locate_eq (tree : FileTree) {path : String} (h : IsPath path) :
    tree.locate path =
      tree.walk (start path) (segments path.toList).dropLast >>= tree.finish path := by
  unfold locate
  rw [if_neg (by rw [h.noNul]; exact Bool.false_ne_true),
    if_neg (by rw [h.ne_empty]; exact Bool.false_ne_true), if_neg h.short]
  rfl

/-- A text that cannot be a path is refused for one and the same reason by all trees. -/
theorem exists_locate_eq_error {path : String} (h : ¬ IsPath path) :
    ∃ error, (path ≠ "" → error ≠ .notFound) ∧ ∀ tree, locate tree path = .error error := by
  by_cases hnul : path.toList.contains (Char.ofNat 0) = true
  · exact ⟨.nulByte, fun _ => nofun, fun tree => by rw [locate, if_pos hnul]⟩
  by_cases hempty : path.isEmpty = true
  · refine ⟨.notFound, fun hne => absurd (by simpa using hempty) hne, fun tree => ?_⟩
    rw [locate, if_neg hnul, if_pos hempty]
  by_cases hlong : 4096 ≤ path.utf8ByteSize
  · refine ⟨.nameTooLong, fun _ => nofun, fun tree => ?_⟩
    rw [locate, if_neg hnul, if_neg hempty, if_pos hlong]
  · exact absurd ⟨by simpa using hnul, by simpa using hempty, hlong⟩ h

theorem locate_eq_ok_iff (tree : FileTree) (path : String) (place : Place) :
    tree.locate path = .ok place ↔ IsPath path ∧ ∃ directory,
      tree.walk (start path) (segments path.toList).dropLast = .ok directory ∧
        tree.finish path directory = .ok place := by
  by_cases h : IsPath path
  · rw [locate_eq tree h, bind_eq_ok_iff, and_iff_right h]
  · obtain ⟨error, -, herror⟩ := exists_locate_eq_error h
    rw [herror]
    exact ⟨nofun, fun hok => absurd hok.1 h⟩

theorem find_eq_ok_iff (tree : FileTree) (place : Place) (found : Option Node) :
    tree.find place = .ok found ↔
      ¬ 255 < (place.name.getD "").utf8ByteSize ∧ tree.get? place.names = found := by
  unfold find
  split
  · next hlong => exact ⟨nofun, fun h => absurd hlong h.1⟩
  · next hshort => rw [Except.ok.injEq, and_iff_right hshort]

theorem read_eq_ok_iff (tree : FileTree) (path : String) (bytes : ByteArray) :
    tree.read path = .ok bytes ↔ ∃ place, tree.locate path = .ok place ∧
      ¬ 255 < (place.name.getD "").utf8ByteSize ∧ tree.get? place.names = some (.file bytes) ∧
        place.slash = false := by
  unfold read
  rw [bind_eq_ok_iff]
  refine exists_congr fun place => and_congr_right fun _ => ?_
  rw [bind_eq_ok_iff]
  constructor
  · rintro ⟨found, hfind, h⟩
    obtain ⟨hshort, hnode⟩ := (find_eq_ok_iff _ _ _).mp hfind
    split at h
    · cases h
    · cases h
    · split at h
      · cases h
      · next hslash =>
          cases h
          exact ⟨hshort, hnode, by simpa using hslash⟩
  · rintro ⟨hshort, hnode, hslash⟩
    refine ⟨_, (find_eq_ok_iff _ _ _).mpr ⟨hshort, hnode⟩, ?_⟩
    simp only
    rw [if_neg (by simp [hslash])]

theorem isDirectory_eq_true_iff (tree : FileTree) (path : String) :
    tree.isDirectory path = true ↔ ∃ place, tree.locate path = .ok place ∧
      tree.find place = .ok (some .directory) := by
  unfold isDirectory
  rw [← bind_eq_ok_iff]
  split
  · next h => exact ⟨fun _ => h, fun _ => rfl⟩
  · next h => exact ⟨nofun, fun hfound => absurd hfound h⟩

/-! ### Trees that keep the directories of others -/

/-- A tree with all directories of another one. -/
def Keeps (before after : FileTree) : Prop :=
  ∀ names, before.get? names = some .directory → after.get? names = some .directory

theorem Keeps.refl (tree : FileTree) : Keeps tree tree :=
  fun _ h => h

theorem Keeps.trans {before between after : FileTree} (h : Keeps before between)
    (h' : Keeps between after) : Keeps before after :=
  fun names hnames => h' names (h names hnames)

section Keeps

variable {before after : FileTree}

theorem Keeps.enter (h : Keeps before after) {directory below : List String} {name : String}
    (henter : before.enter directory name = .ok below) :
    after.enter directory name = .ok below := by
  unfold FileTree.enter at henter ⊢
  by_cases hdot : name = "."
  · rwa [if_pos hdot] at henter ⊢
  rw [if_neg hdot] at henter ⊢
  by_cases hdots : name = ".."
  · rwa [if_pos hdots] at henter ⊢
  rw [if_neg hdots] at henter ⊢
  by_cases hlong : 255 < name.utf8ByteSize
  · rw [if_pos hlong] at henter
    cases henter
  rw [if_neg hlong] at henter ⊢
  cases hnode : before.get? (directory ++ [name]) with
  | none =>
      rw [hnode] at henter
      cases henter
  | some node =>
      cases node with
      | file bytes =>
          rw [hnode] at henter
          cases henter
      | directory =>
          rw [hnode] at henter
          rwa [h _ hnode]

theorem Keeps.walk (h : Keeps before after) {names directory below : List String}
    (hwalk : before.walk directory names = .ok below) : after.walk directory names = .ok below := by
  induction names generalizing directory with
  | nil => exact hwalk
  | cons name names ih =>
      rw [FileTree.walk, List.foldlM_cons, bind_eq_ok_iff] at hwalk ⊢
      obtain ⟨next, hnext, hrest⟩ := hwalk
      exact ⟨next, h.enter hnext, ih hrest⟩

/-- **Every path leads to the same place in a tree that keeps the directories.** -/
theorem Keeps.locate (h : Keeps before after) {path : String} {place : Place}
    (hlocate : before.locate path = .ok place) : after.locate path = .ok place := by
  rw [locate_eq_ok_iff] at hlocate ⊢
  obtain ⟨hpath, directory, hwalk, hfinish⟩ := hlocate
  refine ⟨hpath, directory, h.walk hwalk, ?_⟩
  unfold finish at hfinish ⊢
  simp only at hfinish ⊢
  split at hfinish
  · exact hfinish
  · split at hfinish
    · next hdots =>
        rw [if_pos hdots]
        rw [bind_eq_ok_iff] at hfinish ⊢
        obtain ⟨below, hbelow, hplace⟩ := hfinish
        exact ⟨below, h.enter hbelow, hplace⟩
    · next hdots =>
        rw [if_neg hdots]
        exact hfinish

theorem Keeps.isDirectory (h : Keeps before after) {path : String}
    (hbefore : before.isDirectory path = true) : after.isDirectory path = true := by
  rw [isDirectory_eq_true_iff] at hbefore ⊢
  obtain ⟨place, hlocate, hfind⟩ := hbefore
  rw [find_eq_ok_iff] at hfind
  exact ⟨place, h.locate hlocate, (find_eq_ok_iff _ _ _).mpr ⟨hfind.1, h _ hfind.2⟩⟩

end Keeps

/-! ### New directories -/

/-- Whether a path leads to a list of names. -/
def LiesAt (tree : FileTree) (path : String) (names : List String) : Prop :=
  ∃ place, tree.locate path = .ok place ∧ place.names = names

theorem Keeps.liesAt {before after : FileTree} (h : Keeps before after) {path : String}
    {names : List String} (hlies : LiesAt before path names) : LiesAt after path names := by
  obtain ⟨place, hlocate, hnames⟩ := hlies
  exact ⟨place, h.locate hlocate, hnames⟩

/-- A tree with new directories, where some paths lead, and nothing else that is new. -/
def Grown (paths : List String) (before after : FileTree) : Prop :=
  ∀ names, after.get? names = before.get? names ∨
    before.get? names = none ∧ after.get? names = some .directory ∧
      ∃ path ∈ paths, LiesAt after path names

section Grown

variable {paths : List String} {before between after : FileTree}

theorem Grown.refl (paths : List String) (tree : FileTree) : Grown paths tree tree :=
  fun _ => Or.inl rfl

theorem Grown.keeps (h : Grown paths before after) : Keeps before after := by
  intro names hnames
  rcases h names with hsame | ⟨hnone, -, -⟩
  · rw [hsame, hnames]
  · rw [hnames] at hnone
    cases hnone

theorem Grown.trans (h : Grown paths before between) (h' : Grown paths between after) :
    Grown paths before after := by
  intro names
  rcases h' names with hsame | ⟨hnone, hnew, hpath⟩
  · rw [hsame]
    refine (h names).imp_right fun ⟨hnone, hnew, path, hpath, hlies⟩ => ?_
    exact ⟨hnone, hnew, path, hpath, h'.keeps.liesAt hlies⟩
  · rcases h names with hsame | ⟨-, hdirectory, -⟩
    · exact Or.inr ⟨hsame ▸ hnone, hnew, hpath⟩
    · rw [hnone] at hdirectory
      cases hdirectory

theorem grown_of_makeDirectory {path : String} (h : before.makeDirectory path = .ok after)
    (hpath : path ∈ paths) : Grown paths before after := by
  unfold makeDirectory at h
  obtain ⟨place, hlocate, h⟩ := bind_eq_ok_iff.mp h
  obtain ⟨found, hfind, h⟩ := bind_eq_ok_iff.mp h
  obtain ⟨-, rfl⟩ := (find_eq_ok_iff _ _ _).mp hfind
  cases hget : before.get? place.names with
  | some node =>
      rw [hget] at h
      cases h
  | none =>
      rw [hget] at h
      cases h
      have hnew : (before.set place.names .directory).get? place.names = some .directory :=
        get?_set_self (by rw [hget]; exact nofun) _
      have hkeeps : Keeps before (before.set place.names .directory) := by
        intro names hnames
        by_cases heq : names = place.names
        · rw [heq, hnew]
        · rw [get?_set_of_ne _ heq, hnames]
      intro names
      by_cases heq : names = place.names
      · subst heq
        exact Or.inr ⟨hget, hnew, path, hpath, place, hkeeps.locate hlocate, rfl⟩
      · exact Or.inl (get?_set_of_ne _ heq _)

end Grown

/-! ### Written files -/

/-- What is written is read back, where no directory was; the directories stay, and so does all
else. -/
theorem of_write {before after : FileTree} {path : String} {bytes : ByteArray}
    (h : before.write path bytes = .ok after) :
    after.read path = .ok bytes ∧ Keeps before after ∧
      ∀ names, LiesAt after path names ∨ after.get? names = before.get? names := by
  unfold write at h
  obtain ⟨place, hlocate, h⟩ := bind_eq_ok_iff.mp h
  split at h
  · cases h
  · next hslash =>
      obtain ⟨found, hfind, h⟩ := bind_eq_ok_iff.mp h
      obtain ⟨hshort, rfl⟩ := (find_eq_ok_iff _ _ _).mp hfind
      split at h
      · cases h
      · next hfile =>
          cases h
          have hkeeps : Keeps before (before.set place.names (.file bytes)) := by
            intro names hnames
            rw [get?_set_of_ne _ (fun heq => hfile (by rw [← heq, hnames])), hnames]
          have hlocate' := hkeeps.locate hlocate
          have hfound := get?_set_self hfile (.file bytes)
          refine ⟨?_, hkeeps, fun names => ?_⟩
          · unfold read
            rw [hlocate', ok_bind, (find_eq_ok_iff _ _ _).mpr ⟨hshort, hfound⟩, ok_bind]
            simp only
            rw [if_neg hslash]
          · by_cases heq : names = place.names
            · exact Or.inl ⟨place, hlocate', heq.symm⟩
            · exact Or.inr (get?_set_of_ne _ heq _)

/-! ### Directories above a place -/

/-- A list of names of which all that lie above it are directories, and it is one itself. -/
def Rooted (tree : FileTree) (names : List String) : Prop :=
  ∀ front, front <+: names → tree.get? front = some .directory

theorem rooted_of_all_above (tree : FileTree) {names : List String}
    (h : names.all (· == "..") = true) : Rooted tree names := by
  intro front hfront
  refine tree.get?_of_isGiven ?_
  rw [List.all_eq_true] at h
  have hall : front.all (· == "..") = true :=
    List.all_eq_true.mpr fun name hname => h name (hfront.subset hname)
  rw [isGiven, hall, Bool.true_or]

theorem rooted_root (tree : FileTree) : Rooted tree root := by
  intro front hfront
  refine tree.get?_of_isGiven ?_
  rcases List.prefix_cons_iff.mp hfront with rfl | ⟨tail, rfl, htail⟩
  · rfl
  · rw [List.prefix_nil.mp htail]
    rfl

theorem rooted_start (tree : FileTree) (path : String) : Rooted tree (start path) := by
  unfold start
  split
  · exact rooted_root tree
  · exact rooted_of_all_above tree rfl

theorem Rooted.above {tree : FileTree} {names : List String} (h : Rooted tree names) :
    Rooted tree (above names) := by
  unfold FileTree.above
  split
  · exact rooted_root tree
  · split
    · next hall => exact rooted_of_all_above tree (by simpa using hall)
    · exact fun front hfront => h front (hfront.trans (List.dropLast_prefix names))

theorem Rooted.enter {tree : FileTree} {directory below : List String} {name : String}
    (h : Rooted tree directory) (henter : tree.enter directory name = .ok below) :
    Rooted tree below := by
  unfold FileTree.enter at henter
  split at henter
  · cases henter
    exact h
  split at henter
  · cases henter
    exact h.above
  split at henter
  · cases henter
  split at henter
  · cases henter
  · cases henter
  · next hnode =>
      cases henter
      intro front hfront
      rcases List.prefix_concat_iff.mp hfront with rfl | hfront
      · exact hnode
      · exact h front hfront

theorem Rooted.walk {tree : FileTree} {names directory below : List String}
    (h : Rooted tree directory) (hwalk : tree.walk directory names = .ok below) :
    Rooted tree below := by
  induction names generalizing directory with
  | nil =>
      cases hwalk
      exact h
  | cons name names ih =>
      rw [FileTree.walk, List.foldlM_cons, bind_eq_ok_iff] at hwalk
      obtain ⟨next, hnext, hrest⟩ := hwalk
      exact ih (h.enter hnext) hrest

theorem walk_append_eq_ok_iff (tree : FileTree) (directory front back : List String)
    (below : List String) :
    tree.walk directory (front ++ back) = .ok below ↔
      ∃ between, tree.walk directory front = .ok between ∧ tree.walk between back = .ok below := by
  rw [FileTree.walk, List.foldlM_append, bind_eq_ok_iff]
  rfl

theorem of_enter {tree : FileTree} {directory below : List String} {name : String}
    (henter : tree.enter directory name = .ok below) (hdots : ¬ (name = "." ∨ name = "..")) :
    ¬ 255 < name.utf8ByteSize ∧ tree.get? (directory ++ [name]) = some .directory := by
  unfold enter at henter
  rw [not_or] at hdots
  rw [if_neg hdots.1, if_neg hdots.2] at henter
  split at henter
  · cases henter
  · next hshort =>
      split at henter
      · cases henter
      · cases henter
      · next hnode => exact ⟨hshort, hnode⟩

theorem isDirectory_of_walk {tree : FileTree} {path : String} {directory : List String}
    (hpath : IsPath path) (hwalk : tree.walk (start path) (segments path.toList) = .ok directory) :
    tree.isDirectory path = true := by
  let slash : Bool := path.toList.getLast? = some '/'
  have hrooted := (tree.rooted_start path).walk hwalk
  have hnone (slash : Bool) : tree.find ⟨directory, none, slash⟩ = .ok (some .directory) := by
    refine (find_eq_ok_iff _ _ _).mpr ⟨by simp, ?_⟩
    rw [Place.names, Option.toList_none, List.append_nil]
    exact hrooted _ List.prefix_rfl
  obtain ⟨place, hlocate, hfind⟩ : ∃ place, tree.locate path = .ok place ∧
      tree.find place = .ok (some .directory) := by
    rcases List.eq_nil_or_concat' (segments path.toList) with hnil | ⟨front, name, hconcat⟩
    · rw [hnil] at hwalk
      refine ⟨⟨directory, none, slash⟩,
        (locate_eq_ok_iff _ _ _).mpr ⟨hpath, directory, ?_, ?_⟩, hnone slash⟩
      · rw [hnil]
        exact hwalk
      · rw [finish, hnil]
        rfl
    · rw [hconcat] at hwalk
      obtain ⟨between, hfront, hback⟩ := (walk_append_eq_ok_iff _ _ _ _ _).mp hwalk
      have henter : tree.enter between name = .ok directory := by
        rw [walk, List.foldlM_cons, bind_eq_ok_iff] at hback
        obtain ⟨_, henter, ⟨⟩⟩ := hback
        exact henter
      have hdrop : (segments path.toList).dropLast = front := by
        rw [hconcat, List.dropLast_concat]
      have hlast : (segments path.toList).getLast? = some name := by
        rw [hconcat, List.getLast?_concat]
      by_cases hdots : name = "." ∨ name = ".."
      · refine ⟨⟨directory, none, slash⟩,
          (locate_eq_ok_iff _ _ _).mpr ⟨hpath, between, hdrop ▸ hfront, ?_⟩, hnone slash⟩
        rw [finish, hlast]
        simp only
        rw [if_pos hdots, henter]
        rfl
      · obtain ⟨hshort, hnode⟩ := of_enter henter hdots
        refine ⟨⟨between, some name, slash⟩,
          (locate_eq_ok_iff _ _ _).mpr ⟨hpath, between, hdrop ▸ hfront, ?_⟩,
          (find_eq_ok_iff _ _ _).mpr ⟨hshort, hnode⟩⟩
        rw [finish, hlast]
        simp only
        rw [if_neg hdots]
  rw [isDirectory, hlocate, ok_bind, hfind]

theorem IsPath.of_above {path upper : String} (h : IsPath path) (habove : Above upper path) :
    IsPath upper := by
  obtain ⟨back, hback⟩ := habove.text
  have happend : path = upper ++ String.ofList back := by
    rw [← String.toList_inj, String.toList_append, String.toList_ofList, hback]
  refine ⟨?_, ?_, fun hlong => h.short ?_⟩
  · have hnul := h.noNul
    rw [← hback, List.contains_append, Bool.or_eq_false_iff] at hnul
    exact hnul.1
  · simpa using habove.ne_empty
  · rw [happend, String.utf8ByteSize_append]
    omega

theorem start_of_above {path upper : String} (habove : Above upper path) :
    start upper = start path := by
  obtain ⟨back, hback⟩ := habove.text
  have hne : upper.toList ≠ [] := by
    simpa using habove.ne_empty
  rw [start, start, ← hback, List.head?_append_of_ne_nil _ hne]

/-- **The paths above a place that is found are directories.** -/
theorem isDirectory_of_above {tree : FileTree} {path upper : String} {place : Place}
    (hlocate : tree.locate path = .ok place) (habove : Above upper path) :
    tree.isDirectory upper = true := by
  obtain ⟨hpath, directory, hwalk, -⟩ := (locate_eq_ok_iff _ _ _).mp hlocate
  obtain ⟨below, hne, hsegments⟩ := habove.names
  rw [hsegments, List.dropLast_append_of_ne_nil hne, ← start_of_above habove] at hwalk
  obtain ⟨between, hwalk, -⟩ := (walk_append_eq_ok_iff _ _ _ _ _).mp hwalk
  exact isDirectory_of_walk (hpath.of_above habove) hwalk

end Posting.Files.FileTree
