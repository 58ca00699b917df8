import WatchCache.Error
import WatchCache.Text.Basic

set_option autoImplicit false

/-!
# Kinds

A resource kind is named by its API group, its version and its own name; the core group has the
empty name.  Its written key is `group/version/Name`, or `version/Name` in the core group.
Each kind has a list identifier, whose name ends in `List`; `item` undoes `list`, and a kind
named just `List` is nobody's list.
-/

namespace WatchCache

open Text

/-- A resource kind. -/
structure Kind where
  group : String
  version : String
  name : String
  deriving DecidableEq, Repr, Inhabited

namespace Kind

/-- The ending of the name of a list identifier. -/
def listEnding : List Char := ['L', 'i', 's', 't']

/-- The list identifier of a kind. -/
def list (k : Kind) : Kind := { k with name := k.name ++ String.ofList listEnding }

/-- The part of a name before the ending of list identifiers, where there is such a part. -/
def itemName? (name : List Char) : Option (List Char) :=
  let start := name.take (name.length - listEnding.length)
  if start ≠ [] ∧ name = start ++ listEnding then some start else none

/-- Whether the kind is a list identifier. -/
def isList (k : Kind) : Bool := (itemName? k.name.toList).isSome

/-- The kind that a list identifier belongs to; any other kind belongs to itself. -/
def item (k : Kind) : Kind :=
  match itemName? k.name.toList with
  | some start => { k with name := String.ofList start }
  | none => k

/-- The `apiVersion` of the objects of a kind. -/
def apiVersion (k : Kind) : String :=
  if k.group = "" then k.version else k.group ++ "/" ++ k.version

/-- The written key of a kind. -/
def key (k : Kind) : String := k.apiVersion ++ "/" ++ k.name

/-- The kind with this key: two or three parts, none of them empty. -/
def parseKey (key : String) : Answer Kind :=
  let fail := .error (.unknownKind
    ("invalid gvk key: " ++ key ++ " (expect v1/Kind or group/v1/Kind)"))
  match splitString '/' key with
  | [version, name] =>
    if version = "" ∨ name = "" then fail else .ok ⟨"", version, name⟩
  | [group, version, name] =>
    if group = "" ∨ version = "" ∨ name = "" then fail else .ok ⟨group, version, name⟩
  | _ => fail

end Kind

end WatchCache
