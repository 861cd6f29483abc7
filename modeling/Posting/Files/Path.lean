import Posting.Text.Lines

/-!
# Paths

A path is a text of names with slashes between.  Slashes in a row count as one, and a dot that is
not at the front counts as nothing.

* `join` puts a name below a path.
* `parent?` is the path without its last name, in the very words of the path.
* `ancestors` are a path and its parents, up to the last one that names anything.
-/

namespace Posting.Files

/-- The name below the directory of a path. -/
def join (directory name : String) : String :=
  if directory.isEmpty || directory.toList.getLast? = some '/' then directory ++ name
  else directory ++ "/" ++ name

/-- The parts of a path between its slashes, without those at its end that name nothing. -/
def dropUnnamed (parts : List (List Char)) : List (List Char) :=
  (parts.reverse.dropWhile (fun part => part == [] || part == ['.'])).reverse

def slashed (parts : List (List Char)) : List Char :=
  ['/'].intercalate parts

/-- The path without its last name, if it has one. -/
def parent? (path : String) : Option String :=
  let body (parts : List (List Char)) : Option (List (List Char)) :=
    match dropUnnamed parts with
    | [] => none
    | named => some (dropUnnamed named.dropLast)
  match Text.split '/' path.toList with
  | [] :: first :: parts =>
    (body (first :: parts)).map (fun parts => String.ofList ('/' :: slashed parts))
  | ['.'] :: parts =>
    match body parts with
    | none => some ""
    | some parts => some (String.ofList (slashed (['.'] :: parts)))
  | parts => (body parts).map (fun parts => String.ofList (slashed parts))

/-- At most so many of a path and its parents, the longest first, without the root and the empty
path. -/
def ancestorsWithin : Nat → String → List String
  | 0, _ => []
  | fuel + 1, path =>
    match parent? path with
    | none => []
    | some parent => path :: ancestorsWithin fuel parent

/-- A path and its parents, the longest first, without the root and the empty path. -/
def ancestors (path : String) : List String :=
  ancestorsWithin (path.length + 1) path

end Posting.Files
