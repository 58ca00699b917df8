import WatchCache.Cache.Basic

set_option autoImplicit false

/-!
# Calls

A call on the cache begins, may have to wait, and ends with a reply.  `begin` functions make a
call as far as it comes at once; `poll` takes a call that waits as far as it comes now; `settle`
lets everything run until nothing more can happen without the clock moving.
-/

namespace WatchCache

namespace Cache

/-! ## Replies -/

/-- The reply for a call that may fail. -/
def replyOf {α : Type} (f : α → Reply) : Answer α → Reply
  | .ok a => f a
  | .error e => .failed e

/-- The reply with one object, decoded if a type was asked for. -/
def objectReply (type : Option ResourceType) (answer : Answer Object) : Reply :=
  match type with
  | none => replyOf .object answer
  | some t => replyOf .resource (answer.bind t.decode)

/-- The reply with a list of objects, each decoded if a type was asked for. -/
def objectsReply (type : Option ResourceType) (answer : Answer (List Object)) : Reply :=
  match type with
  | none => replyOf .objects answer
  | some t => replyOf .resources (answer.bind fun objects => objects.mapM t.decode)

/-! ## The fallback -/

/-- The object at an address in an informer. -/
def informerGet (c : Cache) (i : Informer) (key : ObjectKey) : Answer Object :=
  match ((i.storeFor key.namespace?).bind c.hub.store?).bind (·.get? key) with
  | some o => .ok o
  | none => .error (.notFound i.kind.key key.text)

/-- Lists the objects of stores one after the other. -/
def listStores (o : ListOptions) : Hub → List Nat → Answer (List Object) × Hub
  | h, [] => (.ok [], h)
  | h, id :: rest =>
    match h.list id o with
    | (.error e, h) => (.error e, h)
    | (.ok objects, h) =>
      match listStores o h rest with
      | (.error e, h) => (.error e, h)
      | (.ok more, h) => (.ok (objects ++ more), h)

/-- Lists the objects of an informer.  A namespace that it does not watch has none. -/
def informerList (c : Cache) (i : Informer) (o : ListOptions) :
    Answer (List Object) × Cache :=
  let stores := match i.perNamespace, o.namespace? with
    | true, some ns => (i.storeFor (some ns)).toList
    | _, _ => i.stores
  let (answer, hub) := listStores o c.hub stores
  (answer, c.withHub hub)

/-- Adds an index to stores one after the other, up to the first that refuses. -/
def indexStores (f : Store → Answer Store) : Hub → List Nat → Answer Unit × Hub
  | h, [] => (.ok (), h)
  | h, id :: rest =>
    match h.tryStore id f with
    | (.error e, h) => (.error e, h)
    | (.ok _, h) => indexStores f h rest

/-- What a caller holds of an informer. -/
def informerHandle (i : Informer) : Handle := ⟨i.kind, i.stores, i.topic⟩

/-- Reaches a goal on an informer. -/
def reach (c : Cache) (i : Informer) : Goal → Reply × Cache
  | .get key type => (objectReply type (c.informerGet i key), c)
  | .list o type =>
    let (answer, c) := c.informerList i o
    (objectsReply type answer, c)
  | .informer => (.informer (informerHandle i) (c.isSynced i.stores), c)
  | .index field extract =>
    let (answer, hub) := indexStores (·.indexField field extract) c.hub i.stores
    (replyOf (fun _ => .done) answer, c.withHub hub)

/-- Begins a call on the fallback.  After the start of the cache it waits for the informer,
whoever made it. -/
def beginFallback (c : Cache) (k : Kind) (goal : Goal) : Call × Cache :=
  match c.openInformer k with
  | (.error e, c) => (.finished (.failed e), c)
  | (.ok i, c) =>
    match c.runningUnder with
    | some token =>
      if c.isSynced i.stores then
        let (reply, c) := c.reach i goal
        (.finished reply, c)
      else (.syncing k token goal, c)
    | none =>
      let (reply, c) := c.reach i goal
      (.finished reply, c)

/-! ## Reads -/

/-- Begins to get an object: from the dedicated store of its kind, by a fetch if the store does
not have it, or from the fallback. -/
def beginGet (c : Cache) (k : Kind) (key : ObjectKey) (type : Option ResourceType) :
    Call × Cache :=
  match c.registry.lookup k with
  | none => (c.count (.reads "fallback")).beginFallback k (.get key type)
  | some entry =>
    match (c.hub.store? entry.store).bind (·.get? key) with
    | some o => (.finished (objectReply type (.ok o)), c.count (.reads "store"))
    | none =>
      let c := c.count (.reads "remote")
      let result := c.connector.fetch c.fetchLog.length entry.kind key
      (.fetching entry.kind (c.hub.now + result.delay) result.answer type,
       { c with fetchLog := c.fetchLog ++ [⟨entry.kind, key⟩] })

/-- Ends a fetch. -/
def endFetch (c : Cache) (k : Kind) (answer : Answer Object) (type : Option ResourceType) :
    Reply × Cache :=
  match answer with
  | .ok o => (objectReply type (.ok (o.stamp k)), c.count (.refills "hit"))
  | .error e =>
    (.failed e, c.count (.refills (if e.isNotFound then "not_found" else "error")))

/-- Begins to list objects; the kind may be a list identifier. -/
def beginList (c : Cache) (k : Kind) (o : ListOptions) (type : Option ResourceType) :
    Call × Cache :=
  match c.registry.lookup k with
  | some entry =>
    let (answer, hub) := (c.count (.reads "store")).hub.list entry.store o
    (.finished (objectsReply type answer), c.withHub hub)
  | none => (c.count (.reads "fallback")).beginFallback k.item (.list o type)

/-- Begins to get a handle on the stores of a kind. -/
def beginInformer (c : Cache) (k : Kind) : Call × Cache :=
  match c.registry.lookup k with
  | some e =>
    (.finished (.informer ⟨e.kind, [e.store], e.topic⟩ (c.hub.isSynced e.store)), c)
  | none => c.beginFallback k .informer

/-- Begins to add the index of a field. -/
def beginIndex (c : Cache) (k : Kind) (field : String) (extract : Extractor) : Call × Cache :=
  match c.registry.lookup k with
  | some entry =>
    let (answer, hub) := c.hub.tryStore entry.store (·.indexField field extract)
    (.finished (replyOf (fun _ => .done) answer), c.withHub hub)
  | none => c.beginFallback k (.index field extract)

/-! ## Start and sync -/

/-- Begins to run the cache: the loops of the dedicated kinds at the first start, those of the
informers unless the fallback runs already. -/
def beginStart (c : Cache) (token : Token) : Call × Cache :=
  let c := if c.started then c else { c.spawnDedicated token with started := true }
  let c := match c.runningUnder with
    | some _ => c
    | none => { c.spawnInformers token with runningUnder := some token }
  (.running token, c)

/-- The stores of all informers. -/
def fallbackStores (c : Cache) : List Nat := c.informers.values.flatMap Informer.stores

/-! ## Polling -/

/-- Takes the wait for the fallback as far as it comes. -/
def pollFallback (c : Cache) (stores : List Nat) (token : Token) : Call :=
  match c.hub.synced? token stores with
  | some b => .finished (.flag b)
  | none => .awaitingFallback stores token

/-- Takes a call as far as it comes now. -/
def poll (c : Cache) : Call → Call × Cache
  | .finished r => (.finished r, c)
  | .running token =>
    (if c.hub.isCancelled token then .finished .stopped else .running token, c)
  | .fetching k due answer type =>
    if due ≤ c.hub.now then
      let (reply, c) := c.endFetch k answer type
      (.finished reply, c)
    else (.fetching k due answer type, c)
  | .syncing k token goal =>
    match c.informers.find? k with
    | none => (.syncing k token goal, c)
    | some i =>
      match c.hub.synced? token i.stores with
      | none => (.syncing k token goal, c)
      | some false =>
        (.finished (.failed (.remote ("cache stopped before " ++ k.key ++ " synced"))), c)
      | some true =>
        let (reply, c) := c.reach i goal
        (.finished reply, c)
  | .awaitingDedicated token =>
    match c.hub.synced? token (c.registry.entries.map Entry.store) with
    | none => (.awaitingDedicated token, c)
    | some false => (.finished (.flag false), c)
    | some true => (c.pollFallback c.fallbackStores token, c)
  | .awaitingFallback stores token => (c.pollFallback stores token, c)

/-- Takes calls as far as they come, one after the other. -/
def pollAll : Cache → List Call → List Call × Cache
  | c, [] => ([], c)
  | c, call :: rest =>
    let (call, c) := c.poll call
    let (calls, c) := pollAll c rest
    (call :: calls, c)

/-- Lets everything run until nothing more can happen without the clock moving. -/
def settle (c : Cache) : Cache :=
  let c := c.withHub c.hub.settle
  let (calls, c) := pollAll c c.calls
  { c with calls := calls }

/-! ## Calls by number -/

/-- Enters a call, and lets everything run. -/
def enter (begun : Call × Cache) : Nat × Cache :=
  let (call, c) := begun
  (c.calls.length, { c with calls := c.calls ++ [call] }.settle)

/-- Fails a call before it begins. -/
def refuse (c : Cache) (e : CacheError) : Nat × Cache := enter (.finished (.failed e), c)

/-- Gets an object of a kind. -/
def get (c : Cache) (k : Kind) (key : ObjectKey) : Nat × Cache := enter (c.beginGet k key none)

/-- Gets an object of a type. -/
def getTyped (c : Cache) (t : ResourceType) (key : ObjectKey) : Nat × Cache :=
  match c.scheme.kindOf t with
  | .error e => c.refuse e
  | .ok k => enter (c.beginGet k key (some t))

/-- Lists objects of a kind. -/
def list (c : Cache) (k : Kind) (o : ListOptions) : Nat × Cache := enter (c.beginList k o none)

/-- Lists objects of a type. -/
def listTyped (c : Cache) (t : ResourceType) (o : ListOptions) : Nat × Cache :=
  match c.scheme.kindOf t with
  | .error e => c.refuse e
  | .ok k => enter (c.beginList k.list o (some t))

/-- Gets a handle on the stores of a kind. -/
def informer (c : Cache) (k : Kind) : Nat × Cache := enter (c.beginInformer k)

/-- Adds the index of a field to the stores of a kind. -/
def indexField (c : Cache) (k : Kind) (field : String) (extract : Extractor) : Nat × Cache :=
  enter (c.beginIndex k field extract)

/-- Runs a call for the kind of a type. -/
def forType (c : Cache) (t : ResourceType) (f : Kind → Nat × Cache) : Nat × Cache :=
  match c.scheme.kindOf t with
  | .error e => c.refuse e
  | .ok k => f k

/-- Runs the cache until a token is cancelled. -/
def start (c : Cache) (token : Token) : Nat × Cache := enter (c.beginStart token)

/-- Waits until the dedicated stores and then the informers are synced. -/
def waitForSync (c : Cache) (token : Token) : Nat × Cache :=
  enter (.awaitingDedicated token, c)

/-- The reply of a call, if it has ended. -/
def reply? (c : Cache) (id : Nat) : Option Reply := (c.calls[id]?).bind Call.reply?

/-! ## Time, tokens and events -/

/-- Moves the clock, and lets everything run. -/
def advance (c : Cache) (ms : Nat) : Cache := (c.withHub (c.hub.advance ms)).settle

/-- Cancels a token, and lets everything run. -/
def cancel (c : Cache) (token : Token) : Cache := (c.withHub (c.hub.cancel token)).settle

/-- Puts an event into the newest channel for a kind in a namespace; false if there is none. -/
def feed (c : Cache) (k : Kind) (ns : Option String) (e : Event) : Bool × Answer Cache :=
  let isChannel (r : WatchRecord) : Bool :=
    match c.hub.sources[r.source]? with
    | some (.channel ..) => r.kind = k && r.ns = ns
    | _ => false
  match c.watchLog.reverse.find? isChannel with
  | none => (false, .ok c)
  | some r => (true, do .ok (c.withHub (← c.hub.feed r.source e)).settle)

/-! ## Handles -/

/-- All objects of the stores of a handle. -/
def handleObjects (c : Cache) (h : Handle) : List Object :=
  h.stores.flatMap fun id => ((c.hub.store? id).map fun s => s.indexer.all).getD []

/-- Adds an index to the stores of a handle. -/
def handleIndex (c : Cache) (h : Handle) (name : String) (extract : Extractor) :
    Answer Unit × Cache :=
  let (answer, hub) := indexStores (·.addIndex name extract) c.hub h.stores
  (answer, c.withHub hub)

end Cache

end WatchCache
