import Posting.Files.Access

/-!
# File trees

A `FileTree` is a directory as a value: what lies at which list of names below it.  `locate` finds
the place of a path, through dots and double dots.  Above the tree's own directory lie others, as many
as one asks for, and a root for the paths that start with a slash; nothing else lies in them at
first.

* `get?` is what lies at a list of names, `set` puts something there.
* `FileTree.access` are the file operations on a tree that is kept as a state.
* `changes` are the places below the tree's own directory where it differs from an earlier one.
-/

namespace Posting.Files

/-- What lies at a place in a directory. -/
inductive Node
  | file (bytes : ByteArray)
  | directory

/-- Whether two nodes are the same: files are if their bytes are. -/
def Node.decEq : (a b : Node) → Decidable (a = b)
  | .file a, .file b =>
    match ByteArray.decEq a b with
    | isTrue h => isTrue (congrArg Node.file h)
    | isFalse h => isFalse (fun e => h (Node.file.inj e))
  | .file _, .directory => isFalse nofun
  | .directory, .file _ => isFalse nofun
  | .directory, .directory => isTrue rfl

instance : DecidableEq Node :=
  Node.decEq

/-- A directory with all that lies below it, which is files and directories and nothing else.  Left
out are links, permissions and a disk that is full, and so are other names of the directory itself:
no path through the root, or through a directory above, leads back into it. -/
structure FileTree where
  nodes : List (List String × Node)

/-- The place that a path names: the directory where it ends, the last name if that is more than
dots, and whether a slash follows. -/
structure Place where
  directory : List String
  name : Option String
  slash : Bool
  deriving DecidableEq, Repr

def Place.names (place : Place) : List String :=
  place.directory ++ place.name.toList

namespace FileTree

def empty : FileTree :=
  ⟨[]⟩

/-- The root, which is the directory above itself. -/
def root : List String :=
  ["/"]

/-- The directory above a directory. -/
def above (directory : List String) : List String :=
  if directory = root then root
  else if directory.all (· == "..") then ".." :: directory
  else directory.dropLast

/-- Whether a list of names is that of the tree's own directory, of one above it, or of the root. -/
def isGiven (names : List String) : Bool :=
  names.all (· == "..") || names == root

/-- What lies at a list of names. -/
def get? (tree : FileTree) (names : List String) : Option Node :=
  if isGiven names then some .directory else tree.nodes.lookup names

/-- The entries of a tree with something put at a list of names. -/
def put (names : List String) (node : Node) :
    List (List String × Node) → List (List String × Node)
  | [] => [(names, node)]
  | (place, old) :: rest =>
    if place = names then (names, node) :: rest else (place, old) :: put names node rest

/-- The tree with something put at a list of names. -/
def set (tree : FileTree) (names : List String) (node : Node) : FileTree :=
  ⟨put names node tree.nodes⟩

/-- The directory that a name leads to from a directory. -/
def enter (tree : FileTree) (directory : List String) (name : String) :
    Except FileError (List String) :=
  if name = "." then .ok directory
  else if name = ".." then .ok (above directory)
  else if 255 < name.utf8ByteSize then .error .nameTooLong
  else
    match tree.get? (directory ++ [name]) with
    | none => .error .notFound
    | some (.file _) => .error .notDirectory
    | some .directory => .ok (directory ++ [name])

/-- The place of a path. -/
def locate (tree : FileTree) (path : String) : Except FileError Place := do
  let names := ((Text.split '/' path.toList).filter (· != [])).map String.ofList
  if path.toList.contains (Char.ofNat 0) then .error .nulByte
  else if path.isEmpty then .error .notFound
  else if 4096 ≤ path.utf8ByteSize then .error .nameTooLong
  else
    let start := if path.toList.head? = some '/' then root else []
    let directory ← names.dropLast.foldlM tree.enter start
    let slash := path.toList.getLast? = some '/'
    match names.getLast? with
    | none => .ok ⟨directory, none, slash⟩
    | some name =>
      if name = "." ∨ name = ".." then .ok ⟨← tree.enter directory name, none, slash⟩
      else .ok ⟨directory, some name, slash⟩

def find (tree : FileTree) (place : Place) : Except FileError (Option Node) :=
  if 255 < (place.name.getD "").utf8ByteSize then .error .nameTooLong
  else .ok (tree.get? place.names)

/-- The content of the file at a path. -/
def read (tree : FileTree) (path : String) : Except FileError ByteArray := do
  let place ← tree.locate path
  match ← tree.find place with
  | none => .error .notFound
  | some .directory => .error .isDirectory
  | some (.file bytes) => if place.slash then .error .notDirectory else .ok bytes

/-- Whether a directory lies at a path. -/
def isDirectory (tree : FileTree) (path : String) : Bool :=
  match tree.locate path >>= tree.find with
  | .ok (some .directory) => true
  | _ => false

/-- The tree with a directory made at a path. -/
def makeDirectory (tree : FileTree) (path : String) : Except FileError FileTree := do
  let place ← tree.locate path
  match ← tree.find place with
  | none => .ok (tree.set place.names .directory)
  | some _ => .error .alreadyExists

/-- The tree with a file written at a path. -/
def write (tree : FileTree) (path : String) (bytes : ByteArray) : Except FileError FileTree := do
  let place ← tree.locate path
  if place.slash then .error .isDirectory
  else
    match ← tree.find place with
    | some .directory => .error .isDirectory
    | _ => .ok (tree.set place.names (.file bytes))

/-- An operation that makes a new tree, on a tree that is kept as a state; it stays as it is if the
operation fails. -/
def update (operation : FileTree → Except FileError FileTree) :
    StateM FileTree (Except FileError Unit) :=
  modifyGet fun tree =>
    match operation tree with
    | .ok changed => (.ok (), changed)
    | .error error => (.error error, tree)

/-- The file operations on a tree that is kept as a state. -/
def access : Access (StateM FileTree) where
  read path := return (← get).read path
  isDirectory path := return (← get).isDirectory path
  makeDirectory path := update (·.makeDirectory path)
  write path bytes := update (·.write path bytes)

/-- Whether a list of names leads below the tree's own directory. -/
def isInside (names : List String) : Bool :=
  names.head? != some ".." && names.head? != some "/"

/-- The places below the tree's own directory where it differs from an earlier one, and what lies
there. -/
def changes (before after : FileTree) : List (List String × Node) :=
  after.nodes.filter (fun (names, node) => isInside names && before.get? names != some node)

end FileTree

end Posting.Files
