import WatchCache.Cache.Connector
import WatchCache.Hub.Run
import WatchCache.Server.Scheme

set_option autoImplicit false

/-!
# The cache

A cache reads objects of every kind.  The kinds named at its construction are *dedicated*: each
has a store of its own in the registry, under its kind and under its list identifier, and a miss
is answered by a fetch.  Every other kind belongs to the *fallback*: an informer is made for it
when it is first asked for, with one store for each configured namespace or a single one for all,
and a read waits until the informer is synced.

The stores and the loops that feed them live in the hub of the cache.
-/

namespace WatchCache

/-- A dedicated kind with its store and its source. -/
structure Entry where
  kind : Kind
  store : Nat
  topic : Nat
  source : Nat
  deriving DecidableEq, Repr, Inhabited

/-- The dedicated kinds. -/
structure Registry where
  entries : List Entry := []
  byKind : Table Kind Entry := []
  deriving DecidableEq, Repr, Inhabited

namespace Registry

/-- The entry for a kind or a list identifier. -/
def lookup (r : Registry) (k : Kind) : Option Entry := r.byKind.find? k

/-- Whether there is an entry for a kind or a list identifier. -/
def contains (r : Registry) (k : Kind) : Bool := r.byKind.has k

/-- Adds an entry under both identifiers of its kind. -/
def add (r : Registry) (e : Entry) : Registry :=
  { entries := r.entries ++ [e], byKind := (r.byKind.insert e.kind.list e).insert e.kind e }

end Registry

/-- One store of an informer. -/
structure Watched where
  ns : Option String
  store : Nat
  source : Nat
  deriving DecidableEq, Repr, Inhabited

/-- The stores of one kind in the fallback; they publish on one topic. -/
structure Informer where
  kind : Kind
  perNamespace : Bool
  topic : Nat
  watched : List Watched
  deriving DecidableEq, Repr, Inhabited

namespace Informer

/-- The stores of an informer. -/
def stores (i : Informer) : List Nat := i.watched.map Watched.store

/-- The store for the objects of a namespace. -/
def storeFor (i : Informer) (ns : Option String) : Option Nat :=
  if i.perNamespace then
    ns.bind fun ns => (i.watched.find? fun w => w.ns = some ns).map Watched.store
  else i.watched.head?.map Watched.store

end Informer

/-- What a caller holds of the stores of one kind. -/
structure Handle where
  kind : Kind
  stores : List Nat
  topic : Nat
  deriving DecidableEq, Repr, Inhabited

/-- A source that was asked for. -/
structure WatchRecord where
  kind : Kind
  ns : Option String
  selector : Option LabelSelector
  source : Nat
  deriving DecidableEq, Repr, Inhabited

/-- A fetch that was made. -/
structure FetchRecord where
  kind : Kind
  key : ObjectKey
  deriving DecidableEq, Repr, Inhabited

/-- What a call returns. -/
inductive Reply where
  | object (object : Object)
  | resource (resource : Json)
  | objects (objects : List Object)
  | resources (resources : List Json)
  | informer (handle : Handle) (synced : Bool)
  | flag (value : Bool)
  | done
  | stopped
  | failed (error : CacheError)
  deriving DecidableEq, Repr, Inhabited

/-- What a call does once its informer is there. -/
inductive Goal where
  | get (key : ObjectKey) (type : Option ResourceType)
  | list (options : ListOptions) (type : Option ResourceType)
  | informer
  | index (field : String) (extract : Extractor)

/-- How far a call has come. -/
inductive Call where
  /-- Waits for an informer. -/
  | syncing (kind : Kind) (token : Token) (goal : Goal)
  /-- Waits for a fetch, which ends at `due`. -/
  | fetching (kind : Kind) (due : Nat) (answer : Answer Object) (type : Option ResourceType)
  /-- Waits for the dedicated stores. -/
  | awaitingDedicated (token : Token)
  /-- Waits for the stores that the fallback had when the dedicated ones were synced. -/
  | awaitingFallback (stores : List Nat) (token : Token)
  /-- Runs until its token is cancelled. -/
  | running (token : Token)
  | finished (reply : Reply)

/-- The reply of a call that has ended. -/
def Call.reply? : Call → Option Reply
  | .finished r => some r
  | _ => none

/-- A cache. -/
structure Cache where
  connector : Connector
  scheme : Scheme := {}
  options : CacheOptions := {}
  namespaces : List String := []
  selectors : Table Kind LabelSelector := []
  hub : Hub := {}
  registry : Registry := {}
  informers : Table Kind Informer := []
  /-- The token of the first start; loops of new informers run under it. -/
  runningUnder : Option Token := none
  started : Bool := false
  calls : List Call := []
  watchLog : List WatchRecord := []
  fetchLog : List FetchRecord := []

namespace Cache

/-- Changes the hub. -/
def withHub (c : Cache) (h : Hub) : Cache := { c with hub := h }

/-- Adds one to a counter. -/
def count (c : Cache) (s : Series) : Cache := c.withHub (c.hub.count s)

/-! ## Construction -/

/-- Asks the connector for a source. -/
def openSource (c : Cache) (k : Kind) (ns : Option String) (selector : Option LabelSelector) :
    Answer Nat × Cache :=
  match c.connector.watchSource k ns selector with
  | .error e => (.error e, c)
  | .ok source =>
    let (id, hub) := c.hub.addSource source
    (.ok id, { c with hub := hub, watchLog := c.watchLog ++ [⟨k, ns, selector, id⟩] })

/-- Adds a dedicated kind; one that is there already is not added again. -/
def addDedicated (c : Cache) (k : Kind) : Answer Cache := do
  if c.registry.contains k then .ok c
  else
    let isNamespaced ← c.connector.isNamespaced k
    let (topic, hub) := c.hub.addTopic c.options.eventBuffer
    let (store, hub) := hub.addStore k topic
    let ns := if isNamespaced then c.options.ns else none
    match (c.withHub hub).openSource k ns none with
    | (.error e, _) => .error e
    | (.ok source, c) =>
      c.connector.fetcher k
      .ok { c with registry := c.registry.add ⟨k, store, topic, source⟩ }

/-- Adds dedicated kinds. -/
def addDedicatedAll (c : Cache) (kinds : List Kind) : Answer Cache :=
  kinds.foldlM addDedicated c

/-- Restricts the fallback to namespaces; empty and repeated names do not count. -/
def withNamespaces (c : Cache) (namespaces : List String) : Cache :=
  { c with namespaces := (namespaces.filter (· ≠ "")).eraseDups }

/-- Restricts a kind of the fallback to the objects that meet a selector. -/
def withSelector (c : Cache) (k : Kind) (s : LabelSelector) : Cache :=
  { c with selectors := c.selectors.insert k s }

/-! ## Loops -/

/-- Starts a loop. -/
def spawn (c : Cache) (store source : Nat) (token : Token) : Cache :=
  c.withHub (c.hub.spawn
    { store := store, source := source, resync := c.options.resync
      backoff := c.options.backoff, token := token, timer := c.options.timer }).2

/-- Starts the loops of an informer. -/
def spawnInformer (c : Cache) (i : Informer) (token : Token) : Cache :=
  i.watched.foldl (fun c w => c.spawn w.store w.source token) c

/-- Starts the loops of the dedicated kinds. -/
def spawnDedicated (c : Cache) (token : Token) : Cache :=
  c.registry.entries.foldl (fun c e => c.spawn e.store e.source token) c

/-- Starts the loops of all informers. -/
def spawnInformers (c : Cache) (token : Token) : Cache :=
  c.informers.values.foldl (fun c i => c.spawnInformer i token) c

/-! ## Informers -/

/-- Opens one store for each scope of an informer. -/
def openScopes (k : Kind) (topic : Nat) : Cache → List (Option String) →
    Answer (List Watched) × Cache
  | c, [] => (.ok [], c)
  | c, ns :: rest =>
    let (store, hub) := c.hub.addStore k topic
    match (c.withHub hub).openSource k ns (c.selectors.find? k) with
    | (.error e, c) => (.error e, c)
    | (.ok source, c) =>
      match openScopes k topic c rest with
      | (.error e, c) => (.error e, c)
      | (.ok watched, c) => (.ok (⟨ns, store, source⟩ :: watched), c)

/-- Makes the informer of a kind. -/
def buildInformer (c : Cache) (k : Kind) : Answer Informer × Cache :=
  match c.connector.isNamespaced k with
  | .error e => (.error e, c)
  | .ok isNamespaced =>
    let perNamespace := isNamespaced && !c.namespaces.isEmpty
    let scopes := if perNamespace then c.namespaces.map some else [none]
    let (topic, hub) := c.hub.addTopic c.options.eventBuffer
    match openScopes k topic (c.withHub hub) scopes with
    | (.error e, c) => (.error e, c)
    | (.ok watched, c) => (.ok ⟨k, perNamespace, topic, watched⟩, c)

/-- The informer of a kind, which is made if it is not there; its loops start at once when the
cache was started. -/
def openInformer (c : Cache) (k : Kind) : Answer Informer × Cache :=
  match c.informers.find? k with
  | some i => (.ok i, c)
  | none =>
    match c.buildInformer k with
    | (.error e, c) => (.error e, c)
    | (.ok i, c) =>
      let c := { c with informers := c.informers.insert k i }
      (.ok i, match c.runningUnder with
        | some token => c.spawnInformer i token
        | none => c)

/-- Whether all stores of an informer are synced. -/
def isSynced (c : Cache) (stores : List Nat) : Bool := stores.all c.hub.isSynced

end Cache

end WatchCache
