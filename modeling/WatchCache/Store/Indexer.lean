import WatchCache.Error
import WatchCache.Object.Field
import WatchCache.Table

set_option autoImplicit false

/-!
# Indexed tables

A table of objects with named indices.  An index has a bucket for every value that its extractor
finds in some object, and the bucket holds the keys of these objects; it is kept that way by
every change of the table, so a lookup never has to look at the other objects.
-/

namespace WatchCache

/-- The keys of the objects that have a value. -/
abbrev Buckets := Table String (List String)

namespace Buckets

/-- The keys under a value; none where there is no bucket. -/
def keysOf (b : Buckets) (value : String) : List String := (b.find? value).getD []

/-- Puts a key into the bucket of a value. -/
def add (key : String) (b : Buckets) (value : String) : Buckets :=
  let keys := b.keysOf value
  b.insert value (if keys.contains key then keys else keys ++ [key])

/-- Takes a key out of the bucket of a value; a bucket that becomes empty goes. -/
def drop (key : String) (b : Buckets) (value : String) : Buckets :=
  match b.find? value with
  | none => b
  | some keys =>
    match keys.filter (· ≠ key) with
    | [] => b.erase value
    | rest => b.insert value rest

end Buckets

/-- One index. -/
structure Index where
  extract : Extractor
  buckets : Buckets := []

namespace Index

/-- Enters an object under a key. -/
def enter (i : Index) (key : String) (o : Object) : Index :=
  { i with buckets := (i.extract o).foldl (Buckets.add key) i.buckets }

/-- Removes an object from under a key. -/
def leave (i : Index) (key : String) (o : Object) : Index :=
  { i with buckets := (i.extract o).foldl (Buckets.drop key) i.buckets }

/-- The index over the objects of a table. -/
def build (extract : Extractor) (items : Table String Object) : Index :=
  items.foldl (fun i (key, o) => i.enter key o) ⟨extract, []⟩

end Index

/-- A table of objects with its indices. -/
structure Indexer where
  items : Table String Object := []
  indices : Table String Index := []

namespace Indexer

/-- How many objects there are. -/
def size (x : Indexer) : Nat := x.items.length

/-- Whether there are no objects. -/
def isEmpty (x : Indexer) : Bool := x.items.isEmpty

/-- The object under a key. -/
def get? (x : Indexer) (key : String) : Option Object := x.items.find? key

/-- All objects. -/
def all (x : Indexer) : List Object := x.items.values

/-- Whether an index has a name. -/
def hasIndex (x : Indexer) (name : String) : Bool := x.indices.has name

/-- Changes every index. -/
def mapIndices (x : Indexer) (f : Index → Index) : Indexer :=
  { x with indices := x.indices.map fun (name, i) => (name, f i) }

/-- Adds an index, which is built over the objects that are there. -/
def addIndex (x : Indexer) (name : String) (extract : Extractor) : Answer Indexer :=
  if x.hasIndex name then .error (.indexConflict name)
  else .ok { x with indices := x.indices.insert name (Index.build extract x.items) }

/-- Puts an object under a key. -/
def upsert (x : Indexer) (key : String) (o : Object) : Indexer :=
  let old := x.get? key
  { x with items := x.items.insert key o }.mapIndices fun i =>
    (match old with
      | some old => i.leave key old
      | none => i).enter key o

/-- Removes the object under a key. -/
def remove (x : Indexer) (key : String) : Indexer :=
  match x.get? key with
  | none => x
  | some old => { x with items := x.items.erase key }.mapIndices fun i => i.leave key old

/-- Puts a table in the place of the present one and builds every index anew. -/
def replace (x : Indexer) (items : Table String Object) : Indexer :=
  { x with items := items }.mapIndices fun i => Index.build i.extract items

/-- The objects under a value of an index. -/
def byIndex (x : Indexer) (name value : String) : Answer (List Object) :=
  match x.indices.find? name with
  | none => .error (.missingIndex name)
  | some i => .ok ((i.buckets.keysOf value).filterMap x.get?)

/-- The values that an index has buckets for. -/
def indexValues (x : Indexer) (name : String) : List String :=
  match x.indices.find? name with
  | none => []
  | some i => i.buckets.keys

end Indexer

end WatchCache
