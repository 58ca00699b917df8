import WatchCache.Kind
import WatchCache.Object.Metadata
import WatchCache.Selector.Label

set_option autoImplicit false

/-!
# Objects

The cache holds objects of every kind in one form: the type they claim to have, if any, their
metadata, and a body with whatever else they are made of.  What readers receive is a copy that is
stamped with the kind it was read as.
-/

namespace WatchCache

/-- The type that an object claims to have. -/
structure TypeMeta where
  apiVersion : String
  kind : String
  deriving DecidableEq, Repr, Inhabited

/-- An object of any kind. -/
structure Object where
  types : Option TypeMeta := none
  metadata : Metadata := {}
  /-- The other members, in order of their names. -/
  body : List (String × Json) := []
  deriving DecidableEq, Repr, Inhabited

namespace Object

/-! ## Stamping -/

/-- The object with the type of a kind. -/
def stamp (o : Object) (k : Kind) : Object := { o with types := some ⟨k.apiVersion, k.name⟩ }

/-- The object without the record of who set which fields. -/
def withoutManagedFields (o : Object) : Object :=
  { o with metadata := { o.metadata with managedFields := none } }

/-- The namespace, which is empty for an object outside all of them. -/
def nsText (o : Object) : String := o.metadata.nsText

/-- The key of the object in a table. -/
def key (o : Object) : String := o.metadata.key

/-- Whether the labels of the object meet a selector. -/
def meets (o : Object) (s : LabelSelector) : Bool := s.matchesOption o.metadata.labels

/-! ## Values -/

/-- The object as a value. -/
def toJson (o : Object) : Json :=
  .ofMembers <|
    (o.types.toList.flatMap fun t =>
      [("apiVersion", Json.string t.apiVersion), ("kind", .string t.kind)]) ++
    ("metadata", o.metadata.toJson) :: o.body

/-- Takes the two type members out of the members of an object, in their order.  The search
ends with a member that is repeated or no string; then there is no type, and what stands behind
stays with the body. -/
def takeTypes (apiVersion kind : Option String) :
    List (String × Json) → Option TypeMeta × List (String × Json)
  | [] => (do some ⟨← apiVersion, ← kind⟩, [])
  | ("apiVersion", v) :: rest =>
    match apiVersion, v with
    | none, .string s => takeTypes (some s) kind rest
    | _, _ => (none, rest)
  | ("kind", v) :: rest =>
    match kind, v with
    | none, .string s => takeTypes apiVersion (some s) rest
    | _, _ => (none, rest)
  | m :: rest =>
    let (types, body) := takeTypes apiVersion kind rest
    (types, m :: body)

/-- The object with this metadata, if it was given, and these other members. -/
def ofMembers (metadata : Option Metadata) (members : List (String × Json)) : Object :=
  let (types, body) := takeTypes none none members
  ⟨types, metadata.getD {}, Json.sortMembers body⟩

/-- The object that a value stands for. -/
def ofJson? : Json → Option Object
  | .object members =>
    let others := members.filter fun (key, _) => key ≠ "metadata"
    match Json.member? "metadata" members with
    | none => some (ofMembers none others)
    | some j => (Metadata.ofJson? j).map fun m => ofMembers (some m) others
  | _ => none

/-- Reads an object.  Its metadata may not be repeated. -/
def read : Reader Object := Reader.object "struct DynamicObject" do
  let start : Option Metadata × List (String × Json) := (none, [])
  let (metadata, others) ← Reader.members start fun (metadata, others) key => do
    if key ≠ "metadata" then
      return (metadata, (key, ← Reader.afterColon Reader.value) :: others)
    else if metadata.isSome then Reader.refuseObject (.repeatedField key)
    else return (some (← Reader.afterColon Metadata.read), others)
  return ofMembers metadata others.reverse

end Object

end WatchCache
