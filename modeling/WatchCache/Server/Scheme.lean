import WatchCache.Schema.Typed
import WatchCache.Table

set_option autoImplicit false

/-!
# Schemes

A scheme knows the resources of kinds: what their objects are called in paths and whether they
live in namespaces.  It is filled with types and with kinds that have no type, by hand or by
discovery.
-/

namespace WatchCache

/-- How the objects of a kind are addressed on a server. -/
structure Resource where
  group : String
  version : String
  apiVersion : String
  kind : String
  plural : String
  isNamespaced : Bool
  deriving DecidableEq, Repr, Inhabited

/-- The kind that a resource says it is of. -/
def Resource.toKind (r : Resource) : Kind := ⟨r.group, r.version, r.kind⟩

/-- The resource of a kind with a name in paths. -/
def Resource.ofKind (k : Kind) (plural : String) (isNamespaced : Bool) : Resource :=
  ⟨k.group, k.version, k.apiVersion, k.name, plural, isNamespaced⟩

/-- The known kinds and types. -/
structure Scheme where
  resources : Table Kind Resource := []
  types : List ResourceType := []
  deriving DecidableEq, Repr, Inhabited

namespace Scheme

/-- Adds a kind that has no type. -/
def addKind (s : Scheme) (k : Kind) (plural : String) (isNamespaced : Bool) : Scheme :=
  { s with resources := s.resources.insert k (.ofKind k plural isNamespaced) }

/-- Adds a type and its kind. -/
def register (s : Scheme) (t : ResourceType) : Scheme :=
  { s.addKind t.kind t.plural t.isNamespaced with types := t :: s.types }

/-- Whether a kind is known. -/
def contains (s : Scheme) (k : Kind) : Bool := s.resources.has k

/-- The resource of a kind. -/
def resolve (s : Scheme) (k : Kind) : Answer Resource :=
  match s.resources.find? k with
  | some r => .ok r
  | none => .error (.unknownKind k.key)

/-- The kind of a type that was added. -/
def kindOf (s : Scheme) (t : ResourceType) : Answer Kind :=
  if s.types.contains t then .ok t.kind else .error (.unknownType t.fullName)

/-- The known kinds. -/
def kinds (s : Scheme) : List Kind := s.resources.keys

end Scheme

end WatchCache
