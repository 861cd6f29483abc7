import Posting.Text.Characters

/-!
# Files of variables

A file of variables holds one assignment a line: a name, an equals sign and a value, with `export`
in front if one likes.  A number sign starts a comment at the front of a line and behind a blank.
Values may stand in single or double quotes, in which lines may end; outside single quotes a
backslash escapes a character, and a dollar sign and a name, or a name in braces behind it, stand
for the value of a variable.

* `takeLine` is the first logical line of a file.
* `entry` is what a line is: an assignment, nothing, or a fault.
* `extend` adds the variables of a file to those that are set; what is set stays as it is, and
  reading ends at the first line that is no assignment.  It breaks off at a value that no variable
  can have, because it has a NUL character.
-/

namespace Posting.Settings.VariablesFile

open Text

/-! ### Lines -/

/-- Where the reader of lines stands. -/
inductive LineState
  | plain
  | blank
  | escape
  | single
  | singleEscape
  | double
  | doubleEscape
  deriving DecidableEq, Repr

/-- The state behind a character that neither a quote nor an escape precedes. -/
def LineState.start (c : Char) : LineState :=
  if c = '\\' then .escape
  else if c = '"' then .double
  else if c = Char.ofNat 39 then .single
  else .plain

/-- The state behind a character. -/
def LineState.next (state : LineState) (c : Char) : LineState :=
  match state with
  | .plain => if isBlank c && c != '\n' && c != '\r' then .blank else .start c
  | .blank => .start c
  | .escape => .plain
  | .single =>
    if c = '\\' then .singleEscape else if c = Char.ofNat 39 then .plain else .single
  | .singleEscape => .single
  | .double => if c = '\\' then .doubleEscape else if c = '"' then .plain else .double
  | .doubleEscape => .double

/-- What the front of a file is. -/
inductive Line
  | assignment (line rest : List Char)
  | comment (rest : List Char)
  /-- The file ends, or what is left of it cannot be read. -/
  | none
  deriving DecidableEq, Repr

/-- What is left of a text behind its next line feed. -/
def dropLine (cs : List Char) : List Char :=
  (cs.dropWhile (· != '\n')).drop 1

/-- A line of which `done` is read, the last character first. -/
def takeLineFrom (state : LineState) (done : List Char) : List Char → Line
  | [] => if state = .plain ∧ !done.isEmpty then .assignment done.reverse [] else .none
  | c :: rest =>
    if state = .blank ∧ c = '#' then .assignment done.reverse (dropLine rest)
    else
      let next := state.next c
      if c = '\n' ∧ next = .plain then .assignment done.reverse rest
      else takeLineFrom next (c :: done) rest

/-- The first logical line of a file. -/
def takeLine (cs : List Char) : Line :=
  let first := cs.takeWhile (· != '\n')
  if (skipBlanks first).head? = some '#' then .comment (dropLine cs) else takeLineFrom .plain [] cs

/-! ### Values -/

/-- Where the reader of a value stands. -/
inductive ValueState
  | plain
  | single
  | double
  | ended
  deriving DecidableEq, Repr

/-- The value of a variable.  The variables are searched as assignments: the first one that starts with
the name and an equals sign counts, also if the name itself has an equals sign in it. -/
def value? (environment : List (String × String)) (name : List Char) : Option (List Char) :=
  environment.findSome? fun (key, value) =>
    (name ++ ['=']).isPrefixOf? (key.toList ++ '=' :: value.toList)

/-- The value of a variable, which is empty if the variable is not set. -/
def valueOf (environment : List (String × String)) (name : List Char) : List Char :=
  (value? environment name).getD []

/-- Whether a character may stand in the name behind a dollar sign. -/
def isReferenceChar (c : Char) : Bool :=
  isAlphanumeric c

/-- What a reader of a value does not know yet. -/
inductive Pending
  | nothing
  | escape
  | reference (name : List Char)
  | braced (name : List Char)
  deriving DecidableEq, Repr

/-- The character that a backslash and a character stand for. -/
def escaped? (c : Char) : Option Char :=
  if c = '\\' ∨ c = '"' ∨ c = '$' ∨ c = ' ' ∨ c = Char.ofNat 39 then some c
  else if c = 'n' then some '\n'
  else none

/-- A value of which `done` is read, the last character first. -/
def scanValue (environment : List (String × String)) (state : ValueState) (pending : Pending)
    (done : List Char) : List Char → Option (List Char)
  | [] =>
    match pending with
    | .braced _ => none
    | .reference name =>
      if state = .plain then some (done.reverse ++ valueOf environment name) else none
    | _ => if state = .single ∨ state = .double then none else some done.reverse
  | c :: rest =>
    match state, pending with
    | .ended, _ =>
      if c = ' ' ∨ c = '\t' then scanValue environment .ended .nothing done rest
      else if c = '#' then some done.reverse
      else none
    | state, .escape =>
      match escaped? c with
      | some e => scanValue environment state .nothing (e :: done) rest
      | none => none
    | .single, _ =>
      if c = Char.ofNat 39 then scanValue environment .plain .nothing done rest
      else scanValue environment .single .nothing (c :: done) rest
    | state, .reference name =>
      if isReferenceChar c then scanValue environment state (.reference (name ++ [c])) done rest
      else if c = Char.ofNat 0x7B ∧ name.isEmpty then
        scanValue environment state (.braced []) done rest
      else
        let done := (valueOf environment name).reverse ++ done
        if c = '$' then scanValue environment state (.reference []) done rest
        else scanValue environment state .nothing (c :: done) rest
    | state, .braced name =>
      if c = Char.ofNat 0x7D then
        scanValue environment state .nothing ((valueOf environment name).reverse ++ done) rest
      else scanValue environment state (.braced (name ++ [c])) done rest
    | state, .nothing =>
      if c = '$' then scanValue environment state (.reference []) done rest
      else if c = '\\' then scanValue environment state .escape done rest
      else if state = .double then
        if c = '"' then scanValue environment .plain .nothing done rest
        else scanValue environment .double .nothing (c :: done) rest
      else if c = Char.ofNat 39 then scanValue environment .single .nothing done rest
      else if c = '"' then scanValue environment .double .nothing done rest
      else if c = ' ' ∨ c = '\t' then scanValue environment .ended .nothing done rest
      else scanValue environment .plain .nothing (c :: done) rest

/-! ### Assignments -/

/-- The name at the front of a text, and the rest. -/
def takeName? (cs : List Char) : Option (List Char × List Char) :=
  match cs with
  | [] => none
  | c :: _ =>
    if c.isAlpha ∨ c = '_' then
      let name := cs.takeWhile (fun c => c.isAlphanum || c == '_' || c == '.')
      some (name, cs.drop name.length)
    else none

/-- What is left of a text behind blanks and an equals sign. -/
def skipEquals? (cs : List Char) : Option (List Char) :=
  match skipBlanks cs with
  | '=' :: rest => some rest
  | _ => none

/-- The name that a line assigns to, and the rest of the line behind the equals sign. -/
def takeTarget? (cs : List Char) : Option (List Char × List Char) := do
  let (name, rest) ← takeName? cs
  match skipEquals? rest with
  | some rest => some (name, rest)
  | none =>
    if name = "export".toList then
      let (name, rest) ← takeName? (skipBlanks rest)
      let rest ← skipEquals? rest
      some (name, rest)
    else none

/-- What a line is. -/
inductive Entry
  | empty
  | assignment (name value : String)
  | broken
  deriving DecidableEq, Repr

/-- What a line is, given the variables that are set. -/
def entry (environment : List (String × String)) (line : List Char) : Entry :=
  let line := skipBlanks (dropTrailingBlanks line)
  if line.isEmpty ∨ line.head? = some '#' then .empty
  else
    match takeTarget? line with
    | none => .broken
    | some (name, rest) =>
      let value := skipBlanks rest
      if value.isEmpty ∨ value.head? = some '#' then .assignment (String.ofList name) ""
      else
        match scanValue environment .plain .nothing [] value with
        | some value => .assignment (String.ofList name) (String.ofList value)
        | none => .broken

/-- The variables with one more, unless it is set already; none if its value has a NUL character. -/
def addNew? (environment : List (String × String)) (name value : String) :
    Option (List (String × String)) :=
  if (value? environment name.toList).isSome then some environment
  else if value.toList.contains (Char.ofNat 0) then none
  else some (environment ++ [(name, value)])

/-- The variables with those of a file, of which at most so many lines are read. -/
def extendWithin : Nat → List (String × String) → List Char → Option (List (String × String))
  | 0, environment, _ => some environment
  | fuel + 1, environment, cs =>
    match takeLine cs with
    | .none => some environment
    | .comment rest => extendWithin fuel environment rest
    | .assignment line rest =>
      match entry environment line with
      | .empty => extendWithin fuel environment rest
      | .assignment name value => do
        let environment ← addNew? environment name value
        extendWithin fuel environment rest
      | .broken => some environment

/-- The variables with those of a file; none if the file gives a variable a value that it cannot
have. -/
def extend (environment : List (String × String)) (text : String) :
    Option (List (String × String)) :=
  let cs := text.toList
  let cs := if cs.head? = some (Char.ofNat 0xFEFF) then cs.tail else cs
  extendWithin (cs.length + 1) environment cs

/-- The lines of a file up to the first that is no text. -/
def readable (bytes : ByteArray) : String :=
  let rec lines (done line : List UInt8) : List UInt8 → List UInt8
    | [] => if (String.fromUTF8? ⟨line.reverse.toArray⟩).isSome then (line ++ done).reverse
      else done.reverse
    | b :: rest =>
      if b = 10 then
        if (String.fromUTF8? ⟨line.reverse.toArray⟩).isSome then lines (b :: line ++ done) [] rest
        else done.reverse
      else lines done (b :: line) rest
  (String.fromUTF8? ⟨(lines [] [] bytes.toList).toArray⟩).getD ""

end Posting.Settings.VariablesFile
