import WatchCache.Json.Problem
import WatchCache.Object.Timestamp
import WatchCache.Text.Base64

set_option autoImplicit false

/-!
# Schemas

A schema says which JSON values make up a typed resource.  Decoding a value drops the members
that the schema does not know, drops members that are null, puts the default value in the place of
a required member that is missing, and writes times in their strict form.  Members are decoded in
the order of the text, so the first thing that is wrong in that order is the one reported.
-/

namespace WatchCache

/-! ## Schemas -/

/-- What values a part of a resource may have. -/
inductive Schema where
  | text
  | boolean
  | int32
  | int64
  /-- A text that is base64, or null for no bytes. -/
  | bytes
  | timestamp
  /-- An integer of 32 bits or a text. -/
  | intOrText
  /-- Any value but null. -/
  | any
  /-- A text that has to be this one. -/
  | fixed (value : String)
  | list (item : Schema)
  | dict (value : Schema)
  | record (name : String) (fields : List (String × Bool × Schema))
  deriving Repr, Inhabited

namespace Schema

/-- A member that is there even if the value does not say so. -/
def required (name : String) (schema : Schema) : String × Bool × Schema := (name, true, schema)

/-- A member that may be missing. -/
def optional (name : String) (schema : Schema) : String × Bool × Schema := (name, false, schema)

/-- The schema of a member. -/
def field? (fields : List (String × Bool × Schema)) (name : String) : Option Schema :=
  (fields.find? fun (n, _) => n = name).map fun (_, _, s) => s

mutual

/-- The value of a required member that is missing. -/
def default : Schema → Json
  | .text | .bytes | .any => .string ""
  | .boolean => .bool false
  | .int32 | .int64 | .intOrText => .number (.integer 0)
  | .timestamp => .string Timestamp.epoch.text
  | .fixed value => .string value
  | .list _ => .array []
  | .dict _ => .object []
  | .record _ fields => Json.ofMembers (defaultMembers fields)

/-- The required members with their default values. -/
def defaultMembers : List (String × Bool × Schema) → List (String × Json)
  | [] => []
  | (name, isRequired, s) :: rest =>
    if isRequired then (name, default s) :: defaultMembers rest else defaultMembers rest

end

/-- The wording for what a schema expects. -/
def expectation : Schema → String
  | .text | .fixed _ => "a string"
  | .boolean => "a boolean"
  | .int32 => "i32"
  | .int64 => "i64"
  | .bytes => "a base64-encoded string"
  | .timestamp => "an RFC 3339 formatted date and time string"
  | .intOrText => "IntOrString"
  | .any => "any value"
  | .list _ => "a sequence"
  | .dict _ => "a map"
  | .record name _ => name

/-! ## Decoding scalars -/

/-- Decodes a string. -/
def decodeString (s : Schema) (v : String) : Decoded Json :=
  match s with
  | .text | .intOrText | .any => .ok (.string v)
  | .fixed value =>
    if v = value then .ok (.string v) else .error (.wrongValue (.string v) value)
  | .bytes =>
    match Text.base64Fault? v with
    | none => .ok (.string v)
    | some f => .error (.badText f.message)
  | .timestamp =>
    match Timestamp.parse v with
    | .ok t => .ok (.string t.text)
    | .error f => .error (.badText f.message)
  | _ => .error (.wrongType (.string v) s.expectation)

/-- Whether an integer has this many bits and a sign. -/
def fitsSigned (bits : Nat) (n : Int) : Bool :=
  let half : Int := Decimal.twoPow (bits - 1)
  0 ≤ n + half && n < half

/-- Decodes an integer that has this many bits and a sign. -/
def decodeSigned (bits : Nat) (expected : String) (n : Int) : Decoded Json :=
  let v := Number.integer n
  if fitsSigned bits n then .ok (.number v) else .error (.wrongValue (.number v) expected)

/-- Decodes a number. -/
def decodeNumber (s : Schema) (v : Number) : Decoded Json :=
  match s, v with
  | .any, _ => .ok (.number v)
  | .int32, .integer n => decodeSigned 32 s.expectation n
  | .int64, .integer n => decodeSigned 64 s.expectation n
  | .intOrText, .integer n => decodeSigned 32 "a 32-bit integer" n
  | _, _ => .error (.wrongType (.number v) s.expectation)

/-- Decodes a boolean. -/
def decodeBool (s : Schema) (v : Bool) : Decoded Json :=
  match s with
  | .boolean | .any => .ok (.bool v)
  | _ => .error (.wrongType (.bool v) s.expectation)

/-- Decodes null where a value has to be. -/
def decodeNull (s : Schema) : Decoded Json :=
  match s with
  | .bytes => .ok (.string "")
  | .any => .ok .null
  | _ => .error (.wrongType .null s.expectation)

/-- Decodes a value that is no array and no object. -/
def decodeScalar (s : Schema) : Json → Decoded Json
  | .null => s.decodeNull
  | .bool v => s.decodeBool v
  | .number v => s.decodeNumber v
  | .string v => s.decodeString v
  | j => .error (.wrongType (.ofJson j) s.expectation)

/-! ## Decoding -/

/-- The members of a record: those decoded, of equal names the last one, and the defaults of
those required.  A member that is null is missing. -/
def complete (fields : List (String × Bool × Schema)) (decoded : List (String × Option Json)) :
    List (String × Json) :=
  fields.filterMap fun (name, isRequired, s) =>
    let last := (decoded.reverse.find? fun (n, _) => n = name).bind Prod.snd
    (last.or (if isRequired then some s.default else none)).map fun v => (name, v)

/-- Whether null stands for a member that is missing. -/
def allowsNull : Schema → Bool
  | .fixed _ => false
  | _ => true

mutual

/-- Decodes a value. -/
def decode (s : Schema) : Json → Decoded Json
  | .array items =>
    match s with
    | .list item => do return .array (← decodeItems item items)
    | .any => .ok (.array items)
    | _ => s.decodeScalar (.array items)
  | .object members =>
    match s with
    | .dict value => do return .ofMembers (← decodeEntries value members)
    | .any => .ok (.object members)
    | .record _ fields => do
      return .ofMembers (complete fields (← decodeFields fields members))
    | _ => s.decodeScalar (.object members)
  | j => s.decodeScalar j

/-- Decodes the items of a list. -/
def decodeItems (s : Schema) : List Json → Decoded (List Json)
  | [] => .ok []
  | j :: rest => do
    let v ← decode s j
    return v :: (← decodeItems s rest)

/-- Decodes the values of a dictionary. -/
def decodeEntries (s : Schema) : List (String × Json) → Decoded (List (String × Json))
  | [] => .ok []
  | (key, j) :: rest => do
    let v ← decode s j
    return (key, v) :: (← decodeEntries s rest)

/-- Decodes the members of a record that its schema knows. -/
def decodeFields (fields : List (String × Bool × Schema)) :
    List (String × Json) → Decoded (List (String × Option Json))
  | [] => .ok []
  | (key, j) :: rest => do
    match field? fields key with
    | none => decodeFields fields rest
    | some s =>
      let v ← if j = .null && s.allowsNull then .ok none else (decode s j).map some
      return (key, v) :: (← decodeFields fields rest)

end

end Schema

end WatchCache
