/-!
# Lines of a text

A line ends with a line feed, which a carriage return may precede; the last line may lack its end.
`lines` takes a text apart into its lines without their ends; `split` takes it apart at a separator.
-/

namespace Posting.Text

/-- A line without the carriage return that ends it. -/
def dropReturn (line : List Char) : List Char :=
  if line.getLast? = some '\r' then line.dropLast else line

/-- The lines of a text, without their ends. A carriage return belongs to the end only before a
line feed. -/
def lineList (line : List Char) : List Char → List (List Char)
  | [] => if line.isEmpty then [] else [line.reverse]
  | '\n' :: rest => dropReturn line.reverse :: lineList [] rest
  | c :: rest => lineList (c :: line) rest

/-- The lines of a text, without their ends. -/
def lines (s : String) : List String :=
  (lineList [] s.toList).map String.ofList

/-- The parts of a text between the occurrences of a separator. -/
def split (separator : Char) : List Char → List (List Char)
  | [] => [[]]
  | c :: rest =>
    if c = separator then [] :: split separator rest
    else
      match split separator rest with
      | [] => [[c]]
      | part :: parts => (c :: part) :: parts

end Posting.Text
