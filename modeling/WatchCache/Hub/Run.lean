import WatchCache.Hub.Basic

set_option autoImplicit false

/-!
# Running loops

`stepLoop` is one step of one loop: making a subscription, taking one item from it, ending it for
a resync, ending the delay after it ended, or returning.  A cancelled token comes before
everything but making a subscription, and an item comes before a resync.  A loop breaks down with
the subscription whose resync is due at a time that cannot be told.

`settle` lets loops step until none of them can without the clock moving.  Every step lowers
`work`, unless a loop makes subscriptions without a delay between them.
-/

namespace WatchCache

namespace Hub

/-- Makes a subscription, which a resync ends at `deadline`. -/
def openStream (h : Hub) (id : Nat) (l : Loop) (deadline : Option Nat) : Hub :=
  (h.modifySource l.source fun s => (s.subscribe.2).waitTurn id).setPhase id
    (.streaming (((h.sources[l.source]?).map fun s => s.subscribe.1).getD []) deadline)

/-- Takes one item of a subscription; `items` are those after it. -/
def takeItem (h : Hub) (id : Nat) (l : Loop) (item : Item) (items : List Item)
    (deadline : Option Nat) : Hub :=
  match item with
  | .event e => (h.setPhase id (.streaming items deadline)).apply l.store e
  | .failure _ => h.setPhase id (.streaming items deadline)
  | .ended =>
    let kind := ((h.store? l.store).map fun s => s.kind.key).getD ""
    (h.setPhase id (.backingOff (l.timer.after h.now l.backoff))).count (.restarts kind)

/-- Ends the subscription of a loop, so that it makes a new one. -/
def reopen (h : Hub) (id : Nat) (l : Loop) : Hub :=
  let kind := ((h.store? l.store).map fun s => s.kind.key).getD ""
  ((h.modifySource l.source (·.leave id)).setPhase id .opening).count (.restarts kind)

/-- Returns from a loop. -/
def stop (h : Hub) (id : Nat) (l : Loop) : Hub :=
  (h.modifySource l.source (·.leave id)).setPhase id .stopped

/-- Makes a subscription and breaks down. -/
def breakDown (h : Hub) (id : Nat) (l : Loop) : Hub :=
  (h.modifySource l.source (·.subscribe.2)).stop id l

/-- One step of a loop that takes events from a subscription. -/
def stepStream (h : Hub) (id : Nat) (l : Loop) (items : List Item) (deadline : Option Nat) :
    Option Hub :=
  let due : Option Hub :=
    if deadline.any (· ≤ h.now) then some (h.reopen id l) else none
  match items with
  | item :: items => some (h.takeItem id l item items deadline)
  | [] =>
    match (h.sources[l.source]?).bind (·.receive? id) with
    | some (e, source) =>
      some (({ h with sources := h.sources.set l.source source }).apply l.store e)
    | none => due

/-- One step of a loop, if it can make one now. -/
def stepLoop (h : Hub) (id : Nat) : Option Hub :=
  match h.loops[id]? with
  | none => none
  | some l =>
    match l.phase with
    | .stopped => none
    | .opening =>
      match l.deadline? h.now with
      | some deadline => some (h.openStream id l deadline)
      | none => some (h.breakDown id l)
    | .streaming items deadline =>
      if h.isCancelled l.token then some (h.stop id l) else h.stepStream id l items deadline
    | .backingOff until_ =>
      if h.isCancelled l.token then some (h.stop id l)
      else if until_ ≤ h.now then some (h.setPhase id .opening)
      else none

/-! ## Running to quiescence -/

/-- What a phase adds to the work that is left. -/
def phaseWork (now : Nat) : Phase → Nat
  | .opening => 2
  | .streaming items deadline =>
    4 * items.length + if deadline.any (· ≤ now) then 3 else 1
  | .backingOff _ => 3
  | .stopped => 0

/-- A bound on the steps that loops can make before the clock moves. -/
def work (h : Hub) : Nat :=
  h.sources.foldr (fun s n => 4 * s.remaining + n)
    (h.loops.foldr (fun l n => phaseWork h.now l.phase + n) 0)

/-- The time at which the clock let a loop go on; now for one that waits for no time. -/
def wakeTime (h : Hub) (l : Loop) : Nat :=
  match l.phase with
  | .streaming _ (some deadline) => min deadline h.now
  | .backingOff until_ => min until_ h.now
  | _ => h.now

/-- The loops in the order in which they run: those that the clock let go on earlier come
first. -/
def runOrder (h : Hub) : List Nat :=
  ((h.loops.zipIdx.map fun (l, id) => (h.wakeTime l, id)).mergeSort
    fun a b => a.1 < b.1 || (a.1 = b.1 && a.2 ≤ b.2)).map Prod.snd

/-- The hub after the step of the first loop that can make one. -/
def stepFirst (h : Hub) (order : List Nat) : Option Hub := order.findSome? h.stepLoop

/-- The hub after at most `fuel` steps. -/
def settleIn (order : List Nat) : Nat → Hub → Hub
  | 0, h => h
  | fuel + 1, h =>
    match h.stepFirst order with
    | none => h
    | some h => settleIn order fuel h

/-- The hub when no loop can make a step and no wait can end. -/
def settle (h : Hub) : Hub := (settleIn h.runOrder h.work h).resolveWaits

/-- Moves the clock and lets the loops run. -/
def advance (h : Hub) (ms : Nat) : Hub := { h with now := h.now + ms }

end Hub

end WatchCache
