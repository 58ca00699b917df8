import WatchCache.Options
import WatchCache.Store.Indexer

set_option autoImplicit false

/-!
# Stores

A watch delivers events: one object was applied or deleted, or a full listing replaces all that
was seen before.  A store turns each event into the changes that it makes to its table, and these
are what subscribers receive.

A store is the indexed table of the objects of one kind, as far as events have told of them.  It
is synced from the first full listing on.  Readers receive copies that are stamped with the kind.

`Store.list` answers a call from the smallest index that can: a field selector from the index of
its field, a namespace from the index of namespaces, and anything else from the whole table; the
candidates are then filtered.
-/

namespace WatchCache

/-! ## Events and changes -/

/-- What a watch delivers. -/
inductive Event where
  | applied (object : Object)
  | deleted (object : Object)
  | restarted (objects : List Object)
  deriving DecidableEq, Repr, Inhabited

/-- The word for an event in the counters. -/
def Event.word : Event → String
  | .applied _ => "applied"
  | .deleted _ => "deleted"
  | .restarted _ => "restarted"

/-- What subscribers receive. -/
inductive Change where
  | added (object : Object)
  | updated (old new : Object)
  | deleted (object : Object)
  deriving DecidableEq, Repr, Inhabited

/-! ## Stores -/

/-- The objects of one kind. -/
structure Store where
  kind : Kind
  indexer : Indexer
  synced : Bool := false

namespace Store

/-- The value of the index that every store has. -/
def extractNamespace : Extractor := fun o => [o.nsText]

/-- A store without objects, with the index of namespaces. -/
def new (kind : Kind) : Store :=
  { kind := kind
    indexer := { indices := [(namespaceIndex, Index.build extractNamespace [])] } }

/-- How many objects there are. -/
def size (s : Store) : Nat := s.indexer.size

/-- A copy of the object at an address. -/
def get? (s : Store) (key : ObjectKey) : Option Object :=
  (s.indexer.get? key.text).map fun o => o.stamp s.kind

/-! ## Indices -/

/-- Adds an index. -/
def addIndex (s : Store) (name : String) (extract : Extractor) : Answer Store := do
  .ok { s with indexer := ← s.indexer.addIndex name extract }

/-- The values of the index of a field: each value once under the namespace of the object, if it
has one, and once in the partition of all namespaces. -/
def doubled (extract : Extractor) : Extractor := fun o =>
  let values := extract o
  let everywhere := values.map (partitioned "")
  if o.nsText = "" then everywhere else values.map (partitioned o.nsText) ++ everywhere

/-- Adds the index of a field. -/
def indexField (s : Store) (field : String) (extract : Extractor) : Answer Store :=
  s.addIndex (fieldIndex field) (doubled extract)

/-! ## Lists -/

/-- The objects that a call has to look at. -/
def candidates (s : Store) (o : ListOptions) : Answer (List Object) :=
  match o.fields, o.namespace? with
  | some fields, ns =>
    match fields.oneEqual? with
    | some (field, value) =>
      s.indexer.byIndex (fieldIndex field) (partitioned (ns.getD "") value)
    | none => .error (.unsupportedSelector
        ("non-exact field matches are not supported by the cache: " ++ Text.quote fields.text))
  | none, some ns => s.indexer.byIndex namespaceIndex ns
  | none, none => .ok s.indexer.all

/-- Whether an object is in the namespace of a call and meets its label selector. -/
def admits (o : ListOptions) (object : Object) : Bool :=
  o.namespace?.all (· = object.nsText) && o.labels.all object.meets

/-- Copies of the objects that a call asks for. -/
def list (s : Store) (o : ListOptions) : Answer (List Object) := do
  let found ← s.candidates o
  .ok ((found.filter (admits o)).map fun object => object.stamp s.kind)

/-! ## Events -/

/-- A listing as a table; of equal keys the last object counts. -/
def listing (objects : List Object) : Table String Object :=
  Table.ofPairs (objects.map fun o => (o.key, o))

/-- The store after an event. -/
def apply (s : Store) : Event → Store
  | .applied o => { s with indexer := s.indexer.upsert o.key o }
  | .deleted o => { s with indexer := s.indexer.remove o.key }
  | .restarted objects =>
    { s with indexer := s.indexer.replace (listing objects), synced := true }

/-- The change that an object makes where `old` was before. -/
def changeTo (old : Option Object) (new : Object) : Change :=
  match old with
  | some old => .updated old new
  | none => .added new

/-- The changes that an event makes. -/
def changes (s : Store) : Event → List Change
  | .applied o => [changeTo (s.indexer.get? o.key) o]
  | .deleted o => ((s.indexer.get? o.key).map Change.deleted).toList
  | .restarted objects =>
    let fresh := listing objects
    fresh.map (fun (key, o) => changeTo (s.indexer.get? key) o) ++
    (s.indexer.items.filter fun (key, _) => !fresh.has key).map fun (_, o) => .deleted o

end Store

end WatchCache
