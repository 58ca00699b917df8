import WatchCache.ObjectKey.Read
import WatchCache.Schema.Metadata
import WatchCache.Schema.Read
import WatchCache.Selector.Requirement

set_option autoImplicit false

/-!
# The metadata of an object

Name, namespace, labels and annotations are what the cache looks at; the other members that the
schema knows are kept as they were decoded, and members that it does not know are not kept.
-/

namespace WatchCache

open Selector (Labels)

/-- What an object says about itself, whatever its kind. -/
structure Metadata where
  name : Option String := none
  ns : Option String := none
  labels : Option Labels := none
  annotations : Option Labels := none
  managedFields : Option Json := none
  /-- The other members, in order of their names. -/
  others : List (String × Json) := []
  deriving DecidableEq, Repr, Inhabited

namespace Metadata

/-- The text of a string. -/
def string? : Json → Option String
  | .string s => some s
  | _ => none

/-- The texts in an object of strings. -/
def strings (j : Json) : Labels :=
  j.members.filterMap fun (k, v) => (string? v).map fun s => (k, s)

/-- The members that have a place of their own. -/
def ownMembers : List String := ["name", "namespace", "labels", "annotations", "managedFields"]

/-- The metadata with the members of a decoded value. -/
def ofDecoded (j : Json) : Metadata :=
  { name := (j.get? "name").bind string?
    ns := (j.get? "namespace").bind string?
    labels := (j.get? "labels").map strings
    annotations := (j.get? "annotations").map strings
    managedFields := j.get? "managedFields"
    others := j.members.filter fun (k, _) => !ownMembers.contains k }

/-- The metadata that a value stands for. -/
def ofJson? (j : Json) : Option Metadata := (Schema.objectMeta.decode j).toOption.map ofDecoded

/-- Reads metadata. -/
def read : Reader Metadata := ofDecoded <$> Schema.objectMeta.read

/-- Metadata as a value. -/
def toJson (m : Metadata) : Json :=
  .ofPresent <|
    [("name", m.name.map .string), ("namespace", m.ns.map .string),
     ("labels", m.labels.map .ofStrings), ("annotations", m.annotations.map .ofStrings),
     ("managedFields", m.managedFields)] ++
    m.others.map fun (k, v) => (k, some v)

/-- The namespace, which is empty for an object outside all of them. -/
def nsText (m : Metadata) : String := m.ns.getD ""

/-- The key of the object in a table. -/
def key (m : Metadata) : String := tableKey m.nsText (m.name.getD "")

end Metadata

end WatchCache
