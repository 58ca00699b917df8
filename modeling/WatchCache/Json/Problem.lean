import WatchCache.Decimal.Shortest
import WatchCache.Json.Value
import WatchCache.Text.Quoted

set_option autoImplicit false

/-!
# Problems

What can be wrong with a JSON text, or with a value that is to be of some type, and the wording
of each.  A problem that was met in a text comes with its place there.
-/

namespace WatchCache

/-! ## Faults of a text -/

/-- Why a text is no JSON. -/
inductive Fault where
  | listUnfinished
  | objectUnfinished
  | stringUnfinished
  | valueUnfinished
  | expectedColon
  | expectedCommaOrBracket
  | expectedCommaOrBrace
  | expectedIdent
  | expectedValue
  | invalidEscape
  | invalidNumber
  | numberOutOfRange
  | controlCharacter
  | keyNotString
  | loneSurrogate
  | unfinishedSurrogatePair
  | trailingComma
  | trailingCharacters
  | tooDeep
  deriving DecidableEq, Repr, Inhabited

/-- The wording of a fault. -/
def Fault.message : Fault → String
  | .listUnfinished => "EOF while parsing a list"
  | .objectUnfinished => "EOF while parsing an object"
  | .stringUnfinished => "EOF while parsing a string"
  | .valueUnfinished => "EOF while parsing a value"
  | .expectedColon => "expected `:`"
  | .expectedCommaOrBracket => "expected `,` or `]`"
  | .expectedCommaOrBrace => "expected `,` or `\x7d`"
  | .expectedIdent => "expected ident"
  | .expectedValue => "expected value"
  | .invalidEscape => "invalid escape"
  | .invalidNumber => "invalid number"
  | .numberOutOfRange => "number out of range"
  | .controlCharacter =>
    "control character (\\u0000-\\u001F) found while parsing a string"
  | .keyNotString => "key must be a string"
  | .loneSurrogate => "lone leading surrogate in hex escape"
  | .unfinishedSurrogatePair => "unexpected end of hex escape"
  | .trailingComma => "trailing comma"
  | .trailingCharacters => "trailing characters"
  | .tooDeep => "recursion limit exceeded"

/-- Whether more text could have mended the fault. -/
def Fault.isUnfinished : Fault → Bool
  | .listUnfinished | .objectUnfinished | .stringUnfinished | .valueUnfinished => true
  | _ => false

/-! ## Problems of a value -/

/-- What a message calls a value that it does not show in full. -/
inductive Found where
  | null
  | bool (value : Bool)
  | number (value : Number)
  | string (value : String)
  | sequence
  | map
  deriving DecidableEq, Repr

/-- What a message calls a value. -/
def Found.ofJson : Json → Found
  | .null => .null
  | .bool b => .bool b
  | .number n => .number n
  | .string s => .string s
  | .array _ => .sequence
  | .object _ => .map

/-- The wording for a value. -/
def Found.text : Found → String
  | .null => "null"
  | .bool b => "boolean `" ++ (if b then "true" else "false") ++ "`"
  | .number (.integer n) => "integer `" ++ toString n ++ "`"
  | .number (.real x) => "floating point `" ++ String.ofList x.render ++ "`"
  | .string s => "string " ++ Text.quote s
  | .sequence => "sequence"
  | .map => "map"

/-- What keeps a value from being of a type. -/
inductive Problem where
  | wrongType (found : Found) (expected : String)
  | wrongValue (found : Found) (expected : String)
  | missingField (name : String)
  | repeatedField (name : String)
  /-- An array that stands for a record of a size has too few items. -/
  | wrongLength (length : Nat) (record : String) (size : Nat)
  | badText (detail : String)
  | unreadable (fault : Fault)
  deriving DecidableEq, Repr

namespace Problem

/-- The wording of a problem. -/
def message : Problem → String
  | .wrongType found expected => "invalid type: " ++ found.text ++ ", expected " ++ expected
  | .wrongValue found expected => "invalid value: " ++ found.text ++ ", expected " ++ expected
  | .missingField name => "missing field `" ++ name ++ "`"
  | .repeatedField name => "duplicate field `" ++ name ++ "`"
  | .wrongLength length record size =>
    "invalid length " ++ toString length ++ ", expected " ++ record ++ " with " ++
      toString size ++ " elements"
  | .badText detail => detail
  | .unreadable fault => fault.message

/-- Whether the text ended too early. -/
def isUnfinished : Problem → Bool
  | .unreadable fault => fault.isUnfinished
  | _ => false

end Problem

/-- The outcome of decoding a value. -/
abbrev Decoded (α : Type) := Except Problem α

/-! ## Places -/

/-- A place in a text: the line, from one, and the bytes before it on that line. -/
structure Place where
  line : Nat
  column : Nat
  deriving DecidableEq, Repr, Inhabited

/-- The place as the end of a message. -/
def Place.suffix (p : Place) : String :=
  " at line " ++ toString p.line ++ " column " ++ toString p.column

/-- A problem and where it was met. -/
structure ReadError where
  problem : Problem
  place : Place
  deriving DecidableEq, Repr

/-- The wording of a problem with its place. -/
def ReadError.message (e : ReadError) : String := e.problem.message ++ e.place.suffix

end WatchCache
