import WatchCache.Error
import WatchCache.Json.Value

set_option autoImplicit false

/-!
# Errors as values

An error is an object with one member, which is named for the cause and holds its detail.
`ofJson?_toJson` says that an error is read back as it was.
-/

namespace WatchCache.CacheError

/-- The name of the cause. -/
def causeName : CacheError → String
  | notFound .. => "NotFound"
  | unsupportedSelector _ => "UnsupportedSelector"
  | invalidSelector _ => "InvalidSelector"
  | unknownType _ => "UnknownType"
  | unknownKind _ => "UnknownKind"
  | missingIndex _ => "MissingIndex"
  | indexConflict _ => "IndexConflict"
  | remote _ => "Remote"
  | decode _ => "Decode"
  | construction _ => "Construction"

/-- What is said about the cause. -/
def detail : CacheError → Json
  | notFound resource key => .object [("key", .string key), ("resource", .string resource)]
  | unsupportedSelector d | invalidSelector d | unknownType d | unknownKind d | missingIndex d
  | indexConflict d | remote d | decode d | construction d => .string d

/-- An error as a value. -/
def toJson (e : CacheError) : Json := .object [(e.causeName, e.detail)]

/-- The error of a cause that has one text. -/
def ofText? (causeName text : String) : Option CacheError :=
  match causeName with
  | "UnsupportedSelector" => some (.unsupportedSelector text)
  | "InvalidSelector" => some (.invalidSelector text)
  | "UnknownType" => some (.unknownType text)
  | "UnknownKind" => some (.unknownKind text)
  | "MissingIndex" => some (.missingIndex text)
  | "IndexConflict" => some (.indexConflict text)
  | "Remote" => some (.remote text)
  | "Decode" => some (.decode text)
  | "Construction" => some (.construction text)
  | _ => none

/-- The error that a value stands for. -/
def ofJson? : Json → Option CacheError
  | .object [("NotFound", d)] =>
    match d.get? "resource", d.get? "key" with
    | some (.string resource), some (.string key) => some (.notFound resource key)
    | _, _ => none
  | .object [(causeName, .string text)] => ofText? causeName text
  | _ => none

theorem ofJson?_toJson (e : CacheError) : ofJson? e.toJson = some e := by
  cases e <;> rfl

end WatchCache.CacheError
