import WatchCache.Hub.Source
import WatchCache.Kind
import WatchCache.ObjectKey.Read
import WatchCache.Selector.Label
import WatchCache.Table

set_option autoImplicit false

/-!
# Connectors

What a cache needs from the outside: whether a kind has namespaces, a source of its events, and
single objects.  `Script` is a connector that is written down beforehand.
-/

namespace WatchCache

/-- How a fetch goes: it takes some milliseconds and has an answer. -/
structure FetchResult where
  delay : Nat := 0
  answer : Answer Object
  deriving Inhabited

/-- The outside of a cache. -/
structure Connector where
  /-- Whether objects of a kind live in namespaces. -/
  isNamespaced : Kind → Answer Bool
  /-- A source for a kind, in one namespace or in all, with a selector or without. -/
  watchSource : Kind → Option String → Option LabelSelector → Answer Source
  /-- Whether single objects of a kind can be fetched at all. -/
  fetcher : Kind → Answer Unit
  /-- Fetches one object; the number says how many fetches were made before. -/
  fetch : Nat → Kind → ObjectKey → FetchResult

/-- One object of a remote server, or its failure. -/
structure RemoteEntry where
  kindKey : String
  key : String
  delay : Nat := 0
  outcome : Except String Object
  deriving Inhabited

/-- A connector that is written down beforehand. -/
structure Script where
  kinds : List (Kind × Bool) := []
  remote : List RemoteEntry := []
  badWatch : List Kind := []
  badFetcher : List Kind := []
  sessions : List (Kind × Option String × List (List Item)) := []
  deriving Inhabited

namespace Script

/-- The last entry for a kind and a key. -/
def remoteEntry? (s : Script) (k : Kind) (key : ObjectKey) : Option RemoteEntry :=
  s.remote.reverse.find? fun e => e.kindKey = k.key && e.key = key.text

/-- What a fetch finds. -/
def fetch (s : Script) (k : Kind) (key : ObjectKey) : FetchResult :=
  match s.remoteEntry? k key with
  | none => { answer := .error (.notFound k.key key.text) }
  | some e =>
    { delay := e.delay
      answer := match e.outcome with
        | .ok o => .ok o
        | .error detail => .error (.remote detail) }

/-- The source for a kind in a namespace: the sessions that are written down for it, or else a
channel. -/
def source (s : Script) (k : Kind) (ns : Option String) : Source :=
  match s.sessions.reverse.find? fun (kind, n, _) => kind = k && n = ns with
  | some (_, _, sessions) => .ofSessions sessions
  | none => .newChannel

/-- The connector. -/
def connector (s : Script) : Connector :=
  { isNamespaced := fun k =>
      match (Table.ofPairs s.kinds).find? k with
      | some b => .ok b
      | none => .error (.unknownKind k.key)
    watchSource := fun k ns _ =>
      if s.badWatch.contains k then .error (.construction ("no watch for " ++ k.key))
      else .ok (s.source k ns)
    fetcher := fun k =>
      if s.badFetcher.contains k then .error (.construction ("no fetcher for " ++ k.key))
      else .ok ()
    fetch := fun _ => s.fetch }

end Script

end WatchCache
