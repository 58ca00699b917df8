import WatchCache.Json.Printer
import WatchCache.Object.Basic
import WatchCache.Text.Basic

set_option autoImplicit false

/-!
# Fields of objects

`Object.field` takes the values out of an object that a dotted path such as `spec.color` names.
Name, namespace, labels and annotations are looked up in the metadata, a label by the whole rest
of the path.  Any other path becomes a pointer: every segment of it selects a member of an object
or an item of an array, in the metadata after `metadata.` and in the body otherwise.

A pointer is a text in which every segment follows a slash; a slash and a tilde inside a segment
are written `~1` and `~0`.
-/

namespace WatchCache

open Text

/-! ## Pointers -/

/-- How a character of a segment is written in a pointer. -/
def escapeSegmentChar (c : Char) : List Char :=
  if c = '~' then ['~', '0'] else if c = '/' then ['~', '1'] else [c]

/-- The pointer for the segments between the points of a path. -/
def pointerOf (path : List Char) : List Char :=
  (splitOn '.' path).flatMap fun segment => '/' :: segment.flatMap escapeSegmentChar

/-- The segment that is written so in a pointer; a lone tilde stands for itself. -/
def unescapeSegment : List Char → List Char
  | '~' :: '0' :: rest => '~' :: unescapeSegment rest
  | '~' :: '1' :: rest => '/' :: unescapeSegment rest
  | c :: rest => c :: unescapeSegment rest
  | [] => []

/-- The position that a segment names in an array: decimal digits without sign or leading
zero. -/
def itemIndex? (segment : List Char) : Option Nat :=
  match segment with
  | '+' :: _ => none
  | '0' :: _ :: _ => none
  | _ => word64? (String.ofList segment)

namespace Json

/-- The part of a value that one segment selects. -/
def child? (j : Json) (segment : List Char) : Option Json :=
  match j with
  | .object members => member? (String.ofList segment) members
  | .array items => (itemIndex? segment).bind fun i => items[i]?
  | _ => none

/-- The part of a value that a pointer selects; a pointer is empty or begins with a slash. -/
def pointer? (pointer : List Char) (j : Json) : Option Json :=
  match splitOn '/' pointer with
  | [] :: segments => segments.foldlM (fun j segment => j.child? (unescapeSegment segment)) j
  | _ => none

/-- The text of a scalar that an index can hold. -/
def scalarText? : Json → Option String
  | .string s => some s
  | .number n => some n.text
  | .bool b => some (if b then "true" else "false")
  | _ => none

/-- The texts of a value: its own, if it is a scalar, or those of the scalars in an array. -/
def texts : Json → List String
  | .array items => items.filterMap scalarText?
  | j => j.scalarText?.toList

end Json

/-! ## Extraction -/

/-- What takes the values of an index out of an object. -/
abbrev Extractor := Object → List String

namespace Object

/-- The body as a value. -/
def bodyJson (o : Object) : Json := .object o.body

/-- The values in an object that a path without leading points names. -/
def fieldAt (path : String) (o : Object) : List String :=
  if path = "metadata.name" then o.metadata.name.toList
  else if path = "metadata.namespace" then o.metadata.ns.toList
  else if let some label := dropStart? "metadata.labels." path then
    (o.metadata.labels.bind (·.get? label)).toList
  else if let some annotation := dropStart? "metadata.annotations." path then
    (o.metadata.annotations.bind (·.get? annotation)).toList
  else
    let found := match dropStart? "metadata." path with
      | some rest => o.metadata.toJson.pointer? (pointerOf rest.toList)
      | none => o.bodyJson.pointer? (pointerOf path.toList)
    (found.map Json.texts).getD []

/-- The values in an object that a path names; leading points do not count. -/
def field (path : String) : Extractor :=
  fieldAt (String.ofList (path.toList.dropWhile (· == '.')))

end Object

end WatchCache
