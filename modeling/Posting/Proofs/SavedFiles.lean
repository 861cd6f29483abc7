import Posting.Proofs.DirectoryMaking
import Posting.Proofs.FileNames
import Posting.Run

/-! # Files saved again and in any order

Saving a file on a tree: the directories above it are made, and then it is written (`saveIn`,
`run_save`).

* `saveIn_again`: a file that was saved can be saved again, and nothing changes.
* `saveIn_comm`: two files below one directory can be saved in either order.  The trees that result
  are the `Same`, and so is what is said of each file, but for the reason why their directory cannot
  be made. -/

namespace Posting

open Files

namespace Files.FileTree

/-! ### Places for files -/

/-- The place where a file at a path is written. -/
def target (tree : FileTree) (path : String) : Except FileError (List String) := do
  let place ← tree.locate path
  if place.slash then .error .isDirectory
  else
    match ← tree.find place with
    | some .directory => .error .isDirectory
    | _ => .ok place.names

theorem write_eq (tree : FileTree) (path : String) (bytes : ByteArray) :
    tree.write path bytes = (tree.target path).map (fun names => tree.set names (.file bytes)) := by
  unfold write target
  cases tree.locate path with
  | error error => rfl
  | ok place =>
      rw [ok_bind, ok_bind]
      by_cases hslash : place.slash = true
      · rw [if_pos hslash, if_pos hslash]
        rfl
      rw [if_neg hslash, if_neg hslash]
      rcases tree.find place with _ | _ | _ | _ <;> rfl

theorem target_eq_ok_iff (tree : FileTree) (path : String) (names : List String) :
    tree.target path = .ok names ↔ ∃ place, tree.locate path = .ok place ∧ place.slash = false ∧
      ¬ 255 < (place.name.getD "").utf8ByteSize ∧ tree.get? names ≠ some .directory ∧
        place.names = names := by
  unfold target
  rw [bind_eq_ok_iff]
  refine exists_congr fun place => and_congr_right fun _ => ?_
  cases place.slash with
  | true =>
      constructor
      · rintro ⟨⟩
      · rintro ⟨⟨⟩, -⟩
  | false =>
      rw [if_neg Bool.false_ne_true, and_iff_right rfl, find]
      by_cases hlong : 255 < (place.name.getD "").utf8ByteSize
      · rw [if_pos hlong]
        constructor
        · rintro ⟨⟩
        · exact fun h => absurd hlong h.1
      · rw [if_neg hlong, and_iff_right hlong, ok_bind]
        split
        · next hnode =>
            constructor
            · rintro ⟨⟩
            · rintro ⟨hno, rfl⟩
              exact absurd hnode hno
        · next hno =>
            rw [Except.ok.injEq]
            refine ⟨?_, And.right⟩
            rintro rfl
            exact ⟨hno, rfl⟩

section

variable {tree : FileTree} {names : List String}

theorem get?_set_file (h : tree.get? names ≠ some .directory) (bytes : ByteArray)
    (other : List String) : (tree.set names (.file bytes)).get? other = some .directory ↔
      tree.get? other = some .directory := by
  by_cases heq : other = names
  · subst heq
    rw [get?_set_self h]
    exact ⟨nofun, fun hdirectory => absurd hdirectory h⟩
  · rw [get?_set_of_ne _ heq]

theorem keeps_set_file (h : tree.get? names ≠ some .directory) (bytes : ByteArray) :
    Keeps tree (tree.set names (.file bytes)) :=
  fun other => (get?_set_file h bytes other).mpr

theorem put_of_lookup {node : Node} {nodes : List (List String × Node)}
    (h : nodes.lookup names = some node) : put names node nodes = nodes := by
  induction nodes with
  | nil => cases h
  | cons entry rest ih =>
      obtain ⟨place, old⟩ := entry
      rw [lookup_cons_ite] at h
      rw [put]
      by_cases hplace : names = place
      · rw [if_pos hplace, Option.some.injEq] at h
        rw [if_pos hplace.symm, hplace, h]
      · rw [if_neg hplace] at h
        rw [if_neg (Ne.symm hplace), ih h]

theorem set_file_of_get? {bytes : ByteArray} (h : tree.get? names = some (.file bytes)) :
    tree.set names (.file bytes) = tree := by
  unfold get? at h
  split at h
  · cases h
  · rw [set, put_of_lookup h]

end

theorem write_again {tree after : FileTree} {path : String} {bytes : ByteArray}
    (h : tree.write path bytes = .ok after) : after.write path bytes = .ok after := by
  rw [write_eq, map_eq_ok_iff] at h
  obtain ⟨names, htarget, rfl⟩ := h
  obtain ⟨place, hlocate, hslash, hshort, hno, rfl⟩ := (target_eq_ok_iff _ _ _).mp htarget
  have hnode := get?_set_self hno (.file bytes)
  have hagain : (tree.set place.names (.file bytes)).target path = .ok place.names := by
    refine (target_eq_ok_iff _ _ _).mpr
      ⟨place, (keeps_set_file hno bytes).locate hlocate, hslash, hshort, ?_, rfl⟩
    rw [hnode]
    exact nofun
  rw [write_eq, hagain, ok_map, set_file_of_get? hnode]

/-! ### Trees with the same content -/

/-- Trees with the same content at every place. -/
def Same (tree other : FileTree) : Prop :=
  ∀ names, tree.get? names = other.get? names

theorem Same.refl (tree : FileTree) : Same tree tree :=
  fun _ => rfl

theorem same_set_comm (tree : FileTree) {names other : List String} (hne : names ≠ other)
    (node node' : Node) :
    Same ((tree.set names node).set other node') ((tree.set other node').set names node) := by
  intro place
  rw [get?_set, get?_set, get?_set, get?_set]
  by_cases hnames : place = names
  · rw [if_pos hnames, if_pos hnames, if_neg (hnames.trans_ne hne)]
    split <;> rfl
  · rw [if_neg hnames, if_neg hnames]
    split <;> rfl

/-! ### Files below one directory -/

theorem locate_of_endsIn (tree : FileTree) {path name : String} (hpath : IsPath path)
    (h : EndsIn path name) : tree.locate path =
      tree.walk (start path) (segments path.toList).dropLast >>=
        fun directory => .ok ⟨directory, some name, false⟩ := by
  have hdots : ¬ (name = "." ∨ name = "..") :=
    not_or.mpr ⟨h.isName.ne_dot, h.isName.ne_dots⟩
  rw [locate_eq tree hpath]
  refine congrArg _ (funext fun directory => ?_)
  rw [finish, h.last]
  simp only
  rw [if_neg hdots, decide_eq_false h.noSlash]

theorem target_of_endsIn {tree : FileTree} {path name : String} (hpath : IsPath path)
    (h : EndsIn path name) {directory : List String}
    (hwalk : tree.walk (start path) (segments path.toList).dropLast = .ok directory) :
    tree.target path =
      if 255 < name.utf8ByteSize then .error .nameTooLong
      else if tree.get? (directory ++ [name]) = some .directory then .error .isDirectory
      else .ok (directory ++ [name]) := by
  rw [target, locate_of_endsIn tree hpath h, hwalk, ok_bind, ok_bind]
  simp only
  rw [if_neg Bool.false_ne_true, find, Option.getD_some]
  by_cases hlong : 255 < name.utf8ByteSize
  · rw [if_pos hlong, if_pos hlong]
    rfl
  rw [if_neg hlong, if_neg hlong, ok_bind]
  show (match tree.get? (directory ++ [name]) with
    | some .directory => _
    | _ => _) = _
  split
  · next hnode => rw [if_pos hnode]
  · next hnode =>
      rw [if_neg hnode]
      rfl

theorem target_set_of_siblings {tree : FileTree} {path other name : String}
    {names : List String} (hsiblings : Siblings path other) (hother : EndsIn other name)
    (h : tree.target path = .ok names) (bytes : ByteArray) :
    (tree.set names (.file bytes)).target other = tree.target other := by
  by_cases hpath : IsPath other
  · obtain ⟨place, hlocate, -, -, hno, rfl⟩ := (target_eq_ok_iff _ _ _).mp h
    obtain ⟨-, directory, hwalk, -⟩ := (locate_eq_ok_iff _ _ _).mp hlocate
    rw [hsiblings.start, hsiblings.front] at hwalk
    rw [target_of_endsIn hpath hother hwalk,
      target_of_endsIn hpath hother ((keeps_set_file hno bytes).walk hwalk)]
    simp only [get?_set_file hno]
  · obtain ⟨error, -, herror⟩ := exists_locate_eq_error hpath
    rw [target, target, herror, herror]
    rfl

theorem LiesAt.getLast? {tree : FileTree} {path name : String} {names : List String}
    (hname : EndsIn path name) (h : tree.LiesAt path names) : names.getLast? = some name := by
  obtain ⟨place, hlocate, rfl⟩ := h
  have hpath := ((locate_eq_ok_iff _ _ _).mp hlocate).1
  rw [locate_of_endsIn tree hpath hname, bind_eq_ok_iff] at hlocate
  obtain ⟨directory, -, ⟨⟩⟩ := hlocate
  exact List.getLast?_concat

theorem getLast?_target {tree : FileTree} {path name : String} {names : List String}
    (hname : EndsIn path name) (h : tree.target path = .ok names) : names.getLast? = some name := by
  obtain ⟨place, hlocate, -, -, -, hnames⟩ := (target_eq_ok_iff _ _ _).mp h
  exact LiesAt.getLast? hname ⟨place, hlocate, hnames⟩

theorem run_write (path : String) (bytes : ByteArray) (tree : FileTree) :
    (access.write path bytes).run tree =
      match tree.write path bytes with
      | .ok written => (.ok (), written)
      | .error error => (.error error, tree) :=
  run_update (·.write path bytes) tree

end Files.FileTree

open FileTree

/-! ### Saving -/

/-- Writes a file where the directories above it are. -/
def writeIn (path : String) (bytes : ByteArray) (tree : FileTree) :
    Except RunError Unit × FileTree :=
  match tree.write path bytes with
  | .ok written => (.ok (), written)
  | .error error => (.error (.unwritable path error), tree)

/-- Writes a file and makes the directories above it that are missing. -/
def saveIn (path : String) (bytes : ByteArray) (tree : FileTree) :
    Except RunError Unit × FileTree :=
  match makePath (uppers path) tree with
  | (.ok (), made) => writeIn path bytes made
  | (.error error, made) => (.error (.unwritable ((parent? path).getD "") error), made)

section

variable {path : String} {bytes : ByteArray} {tree made after : FileTree} {error : FileError}

theorem keeps_writeIn (path : String) (bytes : ByteArray) (tree : FileTree) :
    Keeps tree (writeIn path bytes tree).2 := by
  unfold writeIn
  split
  · next hwrite => exact (of_write hwrite).2.1
  · exact .refl tree

theorem saveIn_of_made (h : makePath (uppers path) tree = (.ok (), made)) :
    saveIn path bytes tree = writeIn path bytes made := by
  rw [saveIn, h]

theorem saveIn_of_not_made (h : makePath (uppers path) tree = (.error error, made)) :
    saveIn path bytes tree =
      (.error (.unwritable ((parent? path).getD "") error), made) := by
  rw [saveIn, h]

/-- **What saving a file comes to.** -/
theorem run_orUnwritable (path : String) (bytes : ByteArray) (made : FileTree) : (do
    match ← access.write path bytes with
    | .ok () => return ()
    | .error error => throw (.unwritable path error) :
      ExceptT RunError (StateM FileTree) Unit).run.run made = writeIn path bytes made := by
  rw [run_lift_bind_eq, run_write, writeIn]
  cases made.write path bytes <;> rfl

theorem run_save (path : String) (payload : Payload) (tree : FileTree) :
    (save access path payload).run.run tree = saveIn path payload.text.toUTF8 tree := by
  have hwrite := run_orUnwritable path payload.text.toUTF8
  unfold save saveIn uppers
  cases parent? path with
  | none => exact hwrite tree
  | some parent =>
      by_cases hempty : parent = ""
      · subst hempty
        exact hwrite tree
      · have hnonempty : (!parent.isEmpty) = true := by simpa using hempty
        simp only [hnonempty, if_true]
        rw [run_lift_bind_eq, run_makeDirectories]
        rcases makePath (ancestors parent) tree with ⟨_ | _, made⟩
        · rfl
        · exact hwrite made

/-- **A file that was saved can be saved again, and nothing changes.** -/
theorem saveIn_again (h : saveIn path bytes tree = (.ok (), after)) :
    saveIn path bytes after = (.ok (), after) := by
  rcases hmade : makePath (uppers path) tree with ⟨_ | _, made⟩
  · rw [saveIn_of_not_made hmade] at h
    cases h
  · rw [saveIn_of_made hmade, writeIn] at h
    split at h
    · next hwrite =>
        cases h
        have hkeeps := (of_write hwrite).2.1
        rw [saveIn_of_made (makePath_of_keeps hmade hkeeps), writeIn, write_again hwrite]
    · cases h

/-- Saving a file keeps the directories, and what lies elsewhere. -/
theorem frame_saveIn (path : String) (bytes : ByteArray) (tree : FileTree) :
    Keeps tree (saveIn path bytes tree).2 ∧
      ∀ names, (saveIn path bytes tree).2.LiesAt path names ∨
        (saveIn path bytes tree).2.get? names = tree.get? names ∨ tree.get? names = none := by
  rcases hmade : makePath (uppers path) tree with ⟨_ | _, made⟩
  · have hgrown := grown_of_makePath hmade
    rw [saveIn_of_not_made hmade]
    exact ⟨hgrown.keeps, fun names => Or.inr ((hgrown names).imp_right And.left)⟩
  · have hgrown := grown_of_makePath hmade
    rw [saveIn_of_made hmade, writeIn]
    split
    · next hwrite =>
        obtain ⟨-, hkeeps, hrest⟩ := of_write hwrite
        refine ⟨hgrown.keeps.trans hkeeps, fun names => ?_⟩
        rcases hrest names with hlies | hsame
        · exact Or.inl hlies
        · rw [hsame]
          exact Or.inr ((hgrown names).imp_right And.left)
    · exact ⟨hgrown.keeps, fun names => Or.inr ((hgrown names).imp_right And.left)⟩

end

/-! ### Two files below one directory -/

/-- What is said of two things that are done in either order: of each if it comes first, and of each
if it comes after the other one.  That is the same, unless something other than a directory lies
where a directory is to be made: this is said to exist, and later not to be a directory. -/
inductive InEitherOrder {α : Type} : (first second firstLater secondLater : Except RunError α) → Prop
  | same (first second : Except RunError α) : InEitherOrder first second first second
  | blocked (place : String) :
      InEitherOrder (.error (.unwritable place .alreadyExists))
        (.error (.unwritable place .alreadyExists)) (.error (.unwritable place .notDirectory))
        (.error (.unwritable place .notDirectory))

theorem writeIn_of_target_ok {path : String} {tree : FileTree} {names : List String}
    (h : tree.target path = .ok names) (bytes : ByteArray) :
    writeIn path bytes tree = (.ok (), tree.set names (.file bytes)) := by
  rw [writeIn, write_eq, h]
  rfl

theorem writeIn_of_target_error {path : String} {tree : FileTree} {error : FileError}
    (h : tree.target path = .error error) (bytes : ByteArray) :
    writeIn path bytes tree = (.error (.unwritable path error), tree) := by
  rw [writeIn, write_eq, h]
  rfl

section

variable {path other name name' : String}

theorem target_writeIn (hsiblings : Siblings path other) (hother : EndsIn other name)
    (bytes : ByteArray) (tree : FileTree) :
    (writeIn path bytes tree).2.target other = tree.target other := by
  cases htarget : tree.target path with
  | error error => rw [writeIn_of_target_error htarget]
  | ok names =>
      rw [writeIn_of_target_ok htarget]
      exact target_set_of_siblings hsiblings hother htarget bytes

theorem fst_writeIn {tree tree' : FileTree} (h : tree.target path = tree'.target path)
    (bytes : ByteArray) : (writeIn path bytes tree).1 = (writeIn path bytes tree').1 := by
  cases htarget : tree.target path with
  | error error => rw [writeIn_of_target_error htarget, writeIn_of_target_error (h ▸ htarget)]
  | ok names => rw [writeIn_of_target_ok htarget, writeIn_of_target_ok (h ▸ htarget)]

/-- Files below one directory are written in either order with the same outcome. -/
theorem same_writeIn (hsiblings : Siblings path other) (hpath : EndsIn path name)
    (hother : EndsIn other name') {bytes bytes' : ByteArray} (hbytes : name = name' → bytes = bytes')
    (tree : FileTree) :
    Same (writeIn other bytes' (writeIn path bytes tree).2).2
      (writeIn path bytes (writeIn other bytes' tree).2).2 := by
  have hother' := target_writeIn hsiblings hother bytes tree
  have hpath' := target_writeIn hsiblings.symm hpath bytes' tree
  cases htarget : tree.target path with
  | error error =>
      rw [htarget] at hpath'
      rw [writeIn_of_target_error htarget, writeIn_of_target_error hpath']
      exact .refl _
  | ok names =>
      rw [htarget] at hpath'
      rw [writeIn_of_target_ok hpath']
      cases htarget' : tree.target other with
      | error error =>
          rw [htarget'] at hother'
          rw [writeIn_of_target_error hother', writeIn_of_target_error htarget',
            writeIn_of_target_ok htarget]
          exact .refl _
      | ok names' =>
          rw [htarget'] at hother'
          rw [writeIn_of_target_ok hother', writeIn_of_target_ok htarget,
            writeIn_of_target_ok htarget']
          by_cases hnames : names = names'
          · have hlast := getLast?_target hpath htarget
            rw [hnames, getLast?_target hother htarget', Option.some.injEq] at hlast
            rw [hnames, hbytes hlast.symm]
            exact .refl _
          · exact same_set_comm tree hnames _ _

/-- **Files below one directory can be saved in either order**, if they differ in their names or
have the same content. -/
theorem saveIn_comm (hsiblings : Siblings path other) (hpath : EndsIn path name)
    (hother : EndsIn other name') {bytes bytes' : ByteArray} (hbytes : name = name' → bytes = bytes')
    (tree : FileTree) :
    Same (saveIn other bytes' (saveIn path bytes tree).2).2
        (saveIn path bytes (saveIn other bytes' tree).2).2 ∧
      InEitherOrder (saveIn path bytes tree).1 (saveIn other bytes' tree).1
        (saveIn path bytes (saveIn other bytes' tree).2).1
        (saveIn other bytes' (saveIn path bytes tree).2).1 := by
  have huppers := hsiblings.uppers
  rcases hmade : makePath (uppers path) tree with ⟨error | _, made⟩
  · have hmade' : makePath (uppers other) tree = (.error error, made) := huppers ▸ hmade
    obtain ⟨again, hfollows, hagain⟩ := (stuck_of_makePath (isChain_uppers path) hmade).again
    have hagain' : makePath (uppers other) made = (.error again, made) := huppers ▸ hagain
    rw [saveIn_of_not_made hmade, saveIn_of_not_made hmade', saveIn_of_not_made hagain,
      saveIn_of_not_made hagain', hsiblings.parent]
    refine ⟨.refl made, ?_⟩
    rcases hfollows with rfl | ⟨rfl, rfl⟩
    · exact .same _ _
    · exact .blocked _
  · have hmade' : makePath (uppers other) tree = (.ok (), made) := huppers ▸ hmade
    have hlater := makePath_of_keeps hmade (keeps_writeIn other bytes' made)
    have hlater' := makePath_of_keeps hmade' (keeps_writeIn path bytes made)
    rw [saveIn_of_made hmade, saveIn_of_made hmade', saveIn_of_made hlater,
      saveIn_of_made hlater', fst_writeIn (target_writeIn hsiblings.symm hpath bytes' made),
      fst_writeIn (target_writeIn hsiblings hother bytes made)]
    exact ⟨same_writeIn hsiblings hpath hother hbytes made, .same _ _⟩

end

end Posting
