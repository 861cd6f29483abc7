import Posting.Json.Value
import Posting.Number.Shortest
import Posting.Text.Characters

/-!
# Why a JSON text or value is refused

* A `TextFault` is a breach of the grammar.
* A `ValueFault` is a value that has not the form which was asked for.
* An `Error` is one or the other; its `category` tells a breach of the grammar, a text that ends
  too early and a value of the wrong form apart.
-/

namespace Posting.Json

/-- A breach of the grammar of JSON texts. -/
inductive TextFault
  | endInArray
  | endInObject
  | endInString
  | endInValue
  | missingColon
  | missingArraySeparator
  | missingObjectSeparator
  | unknownWord
  | missingValue
  | invalidEscape
  | invalidNumber
  | numberOutOfRange
  | controlCharacter
  | keyNotString
  | loneSurrogate
  | missingSurrogate
  | trailingComma
  | trailingText
  deriving DecidableEq, Repr

/-- What is said of a breach of the grammar. -/
def TextFault.message : TextFault → String
  | .endInArray => "EOF while parsing a list"
  | .endInObject => "EOF while parsing an object"
  | .endInString => "EOF while parsing a string"
  | .endInValue => "EOF while parsing a value"
  | .missingColon => "expected `:`"
  | .missingArraySeparator => "expected `,` or `]`"
  | .missingObjectSeparator => "expected `,` or `\x7d`"
  | .unknownWord => "expected ident"
  | .missingValue => "expected value"
  | .invalidEscape => "invalid escape"
  | .invalidNumber => "invalid number"
  | .numberOutOfRange => "number out of range"
  | .controlCharacter => "control character (\\u0000-\\u001F) found while parsing a string"
  | .keyNotString => "key must be a string"
  | .loneSurrogate => "lone leading surrogate in hex escape"
  | .missingSurrogate => "unexpected end of hex escape"
  | .trailingComma => "trailing comma"
  | .trailingText => "trailing characters"

/-- Whether the text ends too early. -/
def TextFault.isEnd : TextFault → Bool
  | .endInArray | .endInObject | .endInString | .endInValue => true
  | _ => false

/-- What is said of the beginning of a value of the wrong form. -/
def Head.describe : Head → String
  | .null => "null"
  | .bool b => s!"boolean `{b}`"
  | .number (.integer n) => s!"integer `{n}`"
  | .number (.float x) => "floating point `" ++ x.exact ++ "`"
  | .string s => "string " ++ Text.quoted s
  | .array => "sequence"
  | .object => "map"

/-- The way in which a value has not the form that was asked for. -/
inductive ValueFault
  | wrongKind (found : Head) (expected : String)
  | outOfRange (n : Int) (expected : String)
  | tooManyItems (count : Nat)
  | unknownVariant (name : String) (known : List String)
  | notOneEntry
  | duplicateField (name : String)
  /-- A text or number of the right kind that its reader refuses. -/
  | rejected (message : String)
  deriving DecidableEq, Repr

/-- The names of a choice, each between backticks. -/
def oneOf (names : List String) : String :=
  let shown := names.map (fun name => "`" ++ name ++ "`")
  match shown with
  | [] => "there are no variants"
  | [a] => "expected " ++ a
  | [a, b] => "expected " ++ a ++ " or " ++ b
  | _ => "expected one of " ++ ", ".intercalate shown

/-- What is said of a value of the wrong form. -/
def ValueFault.message : ValueFault → String
  | .wrongKind found expected => "invalid type: " ++ found.describe ++ ", expected " ++ expected
  | .outOfRange n expected => s!"invalid value: integer `{n}`, expected {expected}"
  | .tooManyItems count => s!"invalid length {count}, expected fewer elements in array"
  | .unknownVariant name known => "unknown variant `" ++ name ++ "`, " ++ oneOf known
  | .notOneEntry => "invalid value: map, expected map with a single key"
  | .duplicateField name => "duplicate field `" ++ name ++ "`"
  | .rejected message => message

/-- Why a text is refused. -/
inductive Error
  | text (fault : TextFault)
  | value (fault : ValueFault)
  deriving DecidableEq, Repr

/-- The three kinds of reasons. -/
inductive Category
  | grammar
  | data
  | early
  deriving DecidableEq, Repr

/-- What is said of a refused text. -/
def Error.message : Error → String
  | .text fault => fault.message
  | .value fault => fault.message

def Error.category : Error → Category
  | .text fault => if fault.isEnd then .early else .grammar
  | .value _ => .data

end Posting.Json
