import WatchCache.Error
import WatchCache.Json.Record

set_option autoImplicit false

/-!
# Keys

How objects and index values are addressed.  An object is addressed by its name and, where it
lives in a namespace, by that; an empty namespace means none.  In the table of a store it stands
under `namespace/name`, or under its name alone.  An index value is stored under a namespace, or
under a fixed partition name when it has to be found from every namespace.

An address is written as a JSON object with the members `name`, a string, and `namespace`, a
string or null that may be missing.  An array of the namespace and the name is the same address.
-/

namespace WatchCache

/-- The partition of index values that are found from every namespace. -/
def allNamespaces : String := "__all_namespaces"

/-- The name of the index that every store has. -/
def namespaceIndex : String := "namespace"

/-- The name of the index over a field. -/
def fieldIndex (field : String) : String := "field:" ++ field

/-- `name` where the namespace is empty, `namespace/name` elsewhere. -/
def tableKey (ns name : String) : String := if ns = "" then name else ns ++ "/" ++ name

/-- An index value under its namespace, or in the common partition where that is empty. -/
def partitioned (ns value : String) : String :=
  (if ns = "" then allNamespaces else ns) ++ "/" ++ value

/-- An empty namespace counts as none. -/
def nonEmpty (ns : Option String) : Option String := ns.filter (· ≠ "")

/-- The address of one object. -/
structure ObjectKey where
  ns : Option String
  name : String
  deriving DecidableEq, Repr, Inhabited

namespace ObjectKey

/-- The address with an empty namespace turned into none. -/
def normal (ns : Option String) (name : String) : ObjectKey := ⟨nonEmpty ns, name⟩

/-- The address of an object outside all namespaces. -/
def cluster (name : String) : ObjectKey := ⟨none, name⟩

/-- The namespace, if there is one and it is not empty. -/
def namespace? (k : ObjectKey) : Option String := nonEmpty k.ns

/-- The key in the table of a store; also the text of the address. -/
def text (k : ObjectKey) : String := tableKey (k.namespace?.getD "") k.name

/-! ## Written addresses -/

/-- The members of an address; only the namespace can be absent. -/
def fields : List (Record.Field (Option String)) :=
  [⟨"namespace", Reader.textOrNull, true, false⟩, ⟨"name", some <$> Reader.text, false, false⟩]

/-- Reads an address. -/
def read : Reader ObjectKey := do
  let found ← Record.read "struct ObjectKey" fields
  return ⟨(Record.get? found "namespace").join, ((Record.get? found "name").join).getD ""⟩

/-- The address that a text stands for. -/
def parse (text : String) : Answer ObjectKey :=
  (read.run text).mapError fun e => .decode e.message

/-- The address as a value. -/
def toJson (k : ObjectKey) : Json :=
  .ofMembers [("name", .string k.name), ("namespace", .ofOption k.ns)]

end ObjectKey

end WatchCache
