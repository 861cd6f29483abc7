import Posting.Json.Reader

/-!
# Codecs

A `Codec` ties a type to its JSON form: how it is written as a value, how it is read from a value,
and how it is read from the front of a text without building the value first.  The two readings give
the same faults, apart from those of the text itself.

* `ofHead` serves what is written as a scalar.
* `nullable` adds null for an absent value.
* `choice` serves a fixed set of names, each alone or as the only name of an object with null.
* `list` serves arrays.
-/

namespace Posting.Json

/-- The JSON form of a type. -/
structure Codec (α : Type) where
  encode : α → Value
  decode : Value → Except ValueFault α
  scan : Scanner α

/-- Refuses a value for its form. -/
def unfit {α : Type} (fault : ValueFault) : Except Error α :=
  .error (.value fault)

/-- A reading of a value, as a step in the reading of a text. -/
def liftValue {α : Type} (result : Except ValueFault α) : Except Error α :=
  result.mapError .value

namespace Codec

variable {α : Type}

/-- What a text denotes. -/
def read (codec : Codec α) (text : String) : Except Error α :=
  readWith codec.scan text

/-- The codec of what is written as a scalar. -/
def ofHead (encode : α → Value) (accept : Head → Except ValueFault α) : Codec α where
  encode := encode
  decode value := accept value.head
  scan cs := do
    let (head, rest) ← scanHead cs
    let a ← liftValue (accept head)
    .ok (a, rest)

/-- The codec of texts; `kind` names them. -/
def text (kind : String) : Codec String :=
  ofHead .string fun
    | .string s => .ok s
    | head => .error (.wrongKind head kind)

/-- The codec of texts of any content. -/
def string : Codec String :=
  text "a string"

/-- The codec of natural numbers of so many bits. -/
def natural (bits : Nat) : Codec Nat :=
  ofHead (fun n => .int n) fun
    | .number (.integer n) =>
      if 0 ≤ n ∧ n.toNat < Nat.pow 2 bits then .ok n.toNat else .error (.outOfRange n s!"u{bits}")
    | head => .error (.wrongKind head s!"u{bits}")

/-- The codec of what other values of the same JSON form stand for; some of them may be refused. -/
def refine {β : Type} (codec : Codec β) (encode : α → β) (accept : β → Except String α) :
    Codec α where
  encode a := codec.encode (encode a)
  decode value := do
    let b ← codec.decode value
    (accept b).mapError .rejected
  scan cs := do
    let (b, rest) ← codec.scan cs
    let a ← liftValue ((accept b).mapError .rejected)
    .ok (a, rest)

/-- The codec of values that may be absent, which is written as null. -/
def nullable (codec : Codec α) : Codec (Option α) where
  encode
    | none => .null
    | some a => codec.encode a
  decode
    | .null => .ok none
    | value => (codec.decode value).map some
  scan cs :=
    match skipSpace cs with
    | 'n' :: rest => (scanWord "ull".toList rest).map (fun rest => (none, rest))
    | cs => (codec.scan cs).map (fun (a, rest) => (some a, rest))

/-- The member of a choice that a name stands for. -/
def pick (members : List (String × α)) (name : String) : Except ValueFault α :=
  match members.lookup name with
  | some a => .ok a
  | none => .error (.unknownVariant name (members.map Prod.fst))

/-- Null beside the name of a member. -/
def acceptUnit : Head → Except ValueFault Unit
  | .null => .ok ()
  | head => .error (.wrongKind head "unit")

/-- The name of a member at the front of an object of which the bracket is read. -/
def scanMemberName (cs : List Char) : Except Error (String × List Char) :=
  match skipSpace cs with
  | [] => refuse .endInObject
  | c :: rest =>
    if c = '"' then scanString rest
    else if c = closing then refuse .missingValue
    else refuse .keyNotString

/-- The codec of a choice among members with names. -/
def choice (name : α → String) (members : List (String × α)) : Codec α where
  encode a := .string (name a)
  decode
    | .string s => pick members s
    | .object [(s, value)] => do
      let a ← pick members s
      acceptUnit value.head
      .ok a
    | .object _ => .error .notOneEntry
    | value => .error (.wrongKind value.head "string or map")
  scan cs :=
    match skipSpace cs with
    | [] => refuse .endInValue
    | c :: rest =>
      if c = '"' then do
        let (s, rest) ← scanString rest
        let a ← liftValue (pick members s)
        .ok (a, rest)
      else if c = Char.ofNat 0x7B then do
        let (s, rest) ← scanMemberName rest
        let a ← liftValue (pick members s)
        let rest ← scanColon rest
        let (head, rest) ← scanHead rest
        liftValue (acceptUnit head)
        match skipSpace rest with
        | [] => refuse .endInObject
        | c :: rest => if c = closing then .ok (a, rest) else refuse .missingValue
      else refuse .missingValue

/-- The items of an array, of which `done` are read, the last one first, and the rest of the text
from the bracket that closes the array. -/
def scanItems (codec : Codec α) : (bound : List Char) → List α → Scanner (List α)
  | [], _, _ => refuse .endInArray
  | _ :: bound, done, cs => do
    let (more, rest) ← nextItem done.isEmpty cs
    if more then
      let (a, rest) ← codec.scan rest
      scanItems codec bound (a :: done) rest
    else .ok (done.reverse, rest)

def list (codec : Codec α) : Codec (List α) where
  encode items := .array (items.map codec.encode)
  decode
    | .array values => values.mapM codec.decode
    | value => .error (.wrongKind value.head "a sequence")
  scan cs := do
    let (head, rest) ← scanHead cs
    match head with
    | .array =>
      let (items, rest) ← scanItems codec rest [] rest
      let rest ← closeArray rest
      .ok (items, rest)
    | head => unfit (.wrongKind head "a sequence")

end Codec

end Posting.Json
