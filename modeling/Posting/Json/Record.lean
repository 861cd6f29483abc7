import Posting.Json.Codec

/-!
# Records

A record is written as an object with one entry for each of its fields, in their order.  It is read
from an object, in which a field may be missing and is then as in the standard record, names of no
field are passed over, and no field may stand twice; or from an array that holds the first so many
fields in their order.
-/

namespace Posting.Json

/-- A part of a record, with its name and its JSON form. -/
structure RecordField (α : Type) where
  {β : Type}
  name : String
  codec : Codec β
  get : α → β
  set : β → α → α

namespace RecordField

variable {α : Type}

/-- The record with the field read from a value. -/
def decode (field : RecordField α) (value : Value) (a : α) : Except ValueFault α :=
  (field.codec.decode value).map (fun b => field.set b a)

/-- The record with the field read from the front of a text. -/
def scan (field : RecordField α) (a : α) : Scanner α := fun cs =>
  (field.codec.scan cs).map (fun (b, rest) => (field.set b a, rest))

/-- The entry that the field of a record is written as. -/
def entry (a : α) (field : RecordField α) : String × Value :=
  (field.name, field.codec.encode (field.get a))

end RecordField

namespace Record

variable {α : Type}

/-- The record with its fields read from the items of an array. -/
def decodeItems : List (RecordField α) → List Value → α → Except ValueFault α
  | field :: fields, value :: values, a => do
    let a ← field.decode value a
    decodeItems fields values a
  | _, _, a => .ok a

/-- The record with its fields read from the entries of an object; those of the names `seen` are
read already. -/
def decodeEntries (fields : List (RecordField α)) :
    List String → List (String × Value) → α → Except ValueFault α
  | _, [], a => .ok a
  | seen, (name, value) :: entries, a =>
    match fields.find? (fun field => field.name == name) with
    | none => decodeEntries fields seen entries a
    | some field =>
      if seen.contains name then .error (.duplicateField name)
      else do
        let a ← field.decode value a
        decodeEntries fields (name :: seen) entries a

/-- The record with its fields read from the items of an array, of which some are read unless
`first`, and the rest of the text. -/
def scanItems : List (RecordField α) → Bool → α → Scanner α
  | [], _, a, cs => .ok (a, cs)
  | field :: fields, first, a, cs => do
    let (more, rest) ← nextItem first cs
    if more then
      let (a, rest) ← field.scan a rest
      scanItems fields false a rest
    else .ok (a, rest)

/-- The record with its fields read from the entries of an object, and what is left after the
object; those of the names `seen` are read already. -/
def scanEntries (fields : List (RecordField α)) :
    (bound : List Char) → List String → Bool → α → Scanner α
  | [], _, _, _, _ => refuse .endInObject
  | _ :: bound, seen, first, a, cs => do
    let (name?, rest) ← nextName first cs
    match name? with
    | none => .ok (a, rest)
    | some name =>
      match fields.find? (fun field => field.name == name) with
      | none =>
        let rest ← scanColon rest
        let rest ← skipValue rest
        scanEntries fields bound seen false a rest
      | some field =>
        if seen.contains name then unfit (.duplicateField name)
        else
          let rest ← scanColon rest
          let (a, rest) ← field.scan a rest
          scanEntries fields bound (name :: seen) false a rest

end Record

/-- The codec of records with the given fields; `kind` names them, and missing fields are as in
`standard`. -/
def Codec.record {α : Type} (kind : String) (standard : α) (fields : List (RecordField α)) :
    Codec α where
  encode a := .object (fields.map (RecordField.entry a))
  decode
    | .array values => do
      let a ← Record.decodeItems fields values standard
      if fields.length < values.length then .error (.tooManyItems values.length) else .ok a
    | .object entries => Record.decodeEntries fields [] entries standard
    | value => .error (.wrongKind value.head kind)
  scan cs := do
    let (head, rest) ← scanHead cs
    match head with
    | .array =>
      let (a, rest) ← Record.scanItems fields true standard rest
      let rest ← closeArray rest
      .ok (a, rest)
    | .object => Record.scanEntries fields rest [] true standard rest
    | head => unfit (.wrongKind head kind)

end Posting.Json
