import WatchCache.Hub.Metrics
import WatchCache.Hub.Source
import WatchCache.Hub.Topic
import WatchCache.Store.Basic

set_option autoImplicit false

/-!
# The hub

Everything that runs: a clock, cancellation tokens, stores with the topics they publish on,
sources, the loops that bring the events of a source to a store, and subscribers.  All of them
are addressed by their position in the list that holds them, and none is ever removed from its
list, so a position stays valid.

The clock counts the units that the timers of the loops tell, and only moves with `advance`.
-/

namespace WatchCache

/-- A cancellation token is known by its name. -/
abbrev Token := String

/-- A store and the topic that it publishes its changes on. -/
structure StoreCell where
  store : Store
  topic : Nat

/-- What a loop is about to do. -/
inductive Phase where
  /-- A subscription has to be made. -/
  | opening
  /-- Events are taken from a subscription, which a resync ends at `deadline`. -/
  | streaming (items : List Item) (deadline : Option Nat)
  /-- The subscription ended, the next one is made at `until_`. -/
  | backingOff (until_ : Nat)
  /-- The loop has returned, or has broken down. -/
  | stopped
  deriving DecidableEq, Repr, Inhabited

/-- A loop that brings the events of a source to a store. -/
structure Loop where
  store : Nat
  source : Nat
  resync : Option Nat
  backoff : Nat
  token : Token
  phase : Phase := .opening
  timer : Timer := {}
  deriving DecidableEq, Repr, Inhabited

/-- Whether the loop is over. -/
def Loop.isStopped (l : Loop) : Bool := l.phase = .stopped

/-- When a resync ends a subscription that is made now, if there are resyncs at all.  There is no
answer where the time of the resync cannot be told. -/
def Loop.deadline? (l : Loop) (now : Nat) : Option (Option Nat) :=
  match l.resync with
  | none => some none
  | some interval => (l.timer.until? (now + interval)).map some

/-- A wait for stores, and how it ended. -/
structure Wait where
  stores : List Nat
  token : Token
  outcome : Option Bool := none
  deriving DecidableEq, Repr, Inhabited

/-- Everything that runs. -/
structure Hub where
  now : Nat := 0
  cancelled : List Token := []
  stores : List StoreCell := []
  topics : List Topic := []
  sources : List Source := []
  loops : List Loop := []
  subscribers : List (Option Subscriber) := []
  waits : List Wait := []
  metrics : Metrics := {}

namespace Hub

/-! ## Tokens and measurements -/

/-- Whether a token was cancelled. -/
def isCancelled (h : Hub) (token : Token) : Bool := h.cancelled.contains token

/-- Cancels a token. -/
def cancel (h : Hub) (token : Token) : Hub := { h with cancelled := token :: h.cancelled }

/-- Adds one to a counter. -/
def count (h : Hub) (s : Series) : Hub := { h with metrics := h.metrics.count s }

/-! ## Parts -/

/-- Adds a topic for a buffer of some size. -/
def addTopic (h : Hub) (buffer : Nat) : Nat × Hub :=
  (h.topics.length, { h with topics := h.topics ++ [.ofBuffer buffer] })

/-- Adds an empty store that publishes on a topic. -/
def addStore (h : Hub) (kind : Kind) (topic : Nat) : Nat × Hub :=
  (h.stores.length, { h with stores := h.stores ++ [⟨.new kind, topic⟩] })

/-- Adds an empty store with a topic of its own. -/
def newStore (h : Hub) (kind : Kind) (buffer : Nat) : Nat × Hub :=
  let (topic, h) := h.addTopic buffer
  h.addStore kind topic

/-- Adds a source. -/
def addSource (h : Hub) (s : Source) : Nat × Hub :=
  (h.sources.length, { h with sources := h.sources ++ [s] })

/-- Starts a loop. -/
def spawn (h : Hub) (l : Loop) : Nat × Hub :=
  (h.loops.length, { h with loops := h.loops ++ [l] })

/-- A store. -/
def store? (h : Hub) (id : Nat) : Option Store := (h.stores[id]?).map StoreCell.store

/-- Changes a store. -/
def setStore (h : Hub) (id : Nat) (s : Store) : Hub :=
  { h with stores := h.stores.modify id fun c => { c with store := s } }

/-- Changes a source. -/
def modifySource (h : Hub) (id : Nat) (f : Source → Source) : Hub :=
  { h with sources := h.sources.modify id f }

/-- Changes the phase of a loop. -/
def setPhase (h : Hub) (id : Nat) (p : Phase) : Hub :=
  { h with loops := h.loops.modify id fun l => { l with phase := p } }

/-! ## Subscribers -/

/-- Whether anyone is subscribed to a topic. -/
def hasSubscriber (h : Hub) (topic : Nat) : Bool :=
  h.subscribers.any fun s => s.any fun s => s.topic = topic

/-- Subscribes to a topic from now on. -/
def subscribe (h : Hub) (topic : Nat) : Nat × Hub :=
  let next := ((h.topics[topic]?).map fun t => t.log.length).getD 0
  (h.subscribers.length, { h with subscribers := h.subscribers ++ [some ⟨topic, next⟩] })

/-- Ends a subscription. -/
def unsubscribe (h : Hub) (id : Nat) : Hub :=
  { h with subscribers := h.subscribers.set id none }

/-- All that a subscriber receives now. -/
def receive (h : Hub) (id : Nat) : List Received × Hub :=
  match h.subscribers[id]? with
  | some (some s) =>
    match h.topics[s.topic]? with
    | some t =>
      (t.receive s.next,
       { h with subscribers := h.subscribers.set id (some { s with next := t.log.length }) })
    | none => ([], h)
  | _ => ([], h)

/-- Publishes changes on a topic. -/
def publish (h : Hub) (topic : Nat) (changes : List Change) : Hub :=
  { h with topics := h.topics.modify topic fun t => { t with log := t.log ++ changes } }

/-! ## Stores -/

/-- Applies an event to a store, counts it, and publishes its changes to those who are
subscribed. -/
def apply (h : Hub) (id : Nat) (e : Event) : Hub :=
  match h.stores[id]? with
  | none => h
  | some cell =>
    let kind := cell.store.kind.key
    let store := cell.store.apply e
    let metrics := (h.metrics.count (.events kind e.word)).gauge (.objects kind) store.size
    let h' := { h.setStore id store with metrics := metrics }
    if h.hasSubscriber cell.topic then h'.publish cell.topic (cell.store.changes e) else h'

/-- Lists the objects of a store, and counts the list if it succeeds. -/
def list (h : Hub) (id : Nat) (o : ListOptions) : Answer (List Object) × Hub :=
  match h.store? id with
  | none => (.ok [], h)
  | some s =>
    match s.list o with
    | .ok objects => (.ok objects, { h with metrics := h.metrics.sample .lists })
    | .error e => (.error e, h)

/-- Changes a store, or leaves the hub as it is and fails. -/
def tryStore (h : Hub) (id : Nat) (f : Store → Answer Store) : Answer Unit × Hub :=
  match h.store? id with
  | none => (.ok (), h)
  | some s =>
    match f s with
    | .ok s => (.ok (), h.setStore id s)
    | .error e => (.error e, h)

/-- Whether a store has seen a full listing. -/
def isSynced (h : Hub) (id : Nat) : Bool := (h.store? id).any Store.synced

/-- Whether a wait for stores has ended: with `true` once each of them is synced, with `false`
when the token was cancelled before the last of them. -/
def synced? (h : Hub) (token : Token) : List Nat → Option Bool
  | [] => some true
  | id :: rest =>
    if h.isCancelled token then some false
    else if h.isSynced id then h.synced? token rest
    else none

/-- Starts a wait for a store. -/
def addWait (h : Hub) (store : Nat) (token : Token) : Nat × Hub :=
  (h.waits.length, { h with waits := h.waits ++ [⟨[store], token, none⟩] })

/-- Ends the waits whose time has come; a wait that has ended stays as it is. -/
def resolveWaits (h : Hub) : Hub :=
  { h with
    waits := h.waits.map fun w => { w with outcome := w.outcome.or (h.synced? w.token w.stores) } }

/-! ## Channels -/

/-- Whether a loop that is not over reads from a source. -/
def isRead (h : Hub) (source : Nat) : Bool :=
  h.loops.any fun l => l.source = source && !l.isStopped

/-- Puts an event into a channel.  A channel is closed when nobody keeps its receiving end and
no loop reads from it. -/
def feed (h : Hub) (source : Nat) (e : Event) : Answer Hub :=
  match h.sources[source]? with
  | some (.channel queue held turns) =>
    if held || h.isRead source then
      .ok { h with sources := h.sources.set source (.channel (queue ++ [e]) held turns) }
    else .error (.remote "channel source closed")
  | _ => .error (.remote "channel source closed")

/-- Lets go of the receiving end of a channel. -/
def release (h : Hub) (source : Nat) : Hub :=
  h.modifySource source fun s =>
    match s with
    | .channel queue _ turns => .channel queue false turns
    | s => s

end Hub

end WatchCache
