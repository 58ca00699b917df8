import WatchCache.Error
import WatchCache.Store.Basic

set_option autoImplicit false

/-!
# Sources

Where the events of a store come from.  A scripted source hands every subscription the next of
its sessions; a session is silent after its last item, and so is every subscription for which no
session is left.  A channel is one queue for all its subscriptions, which take turns: the one
that has received an event goes behind those that wait.
-/

namespace WatchCache

/-- One thing that a subscription yields. -/
inductive Item where
  | event (event : Event)
  | failure (error : CacheError)
  | ended
  deriving DecidableEq, Repr, Inhabited

/-- A source of events. -/
inductive Source where
  | scripted (sessions : List (List Item)) (watches : Nat)
  /-- `held` says whether anyone but loops keeps the receiving end; `turns` are the loops that
  read from the channel, the one that receives the next event first. -/
  | channel (queue : List Event) (held : Bool) (turns : List Nat)
  deriving DecidableEq, Repr, Inhabited

namespace Source

/-- A source with these sessions. -/
def ofSessions (sessions : List (List Item)) : Source := .scripted sessions 0

/-- A channel without events. -/
def newChannel : Source := .channel [] true []

/-- How many subscriptions were made to a scripted source. -/
def watches : Source → Nat
  | .scripted _ n => n
  | .channel .. => 0

/-- Makes a subscription: the items that it yields, and the source after it. -/
def subscribe : Source → List Item × Source
  | .scripted [] n => ([], .scripted [] (n + 1))
  | .scripted (s :: rest) n => (s, .scripted rest (n + 1))
  | .channel queue held turns => ([], .channel queue held turns)

/-- Ends the subscription of a loop. -/
def leave (loop : Nat) : Source → Source
  | .channel queue held turns => .channel queue held (turns.filter (· ≠ loop))
  | s => s

/-- The loops that wait for a turn, with this one among them. -/
def join (loop : Nat) (turns : List Nat) : List Nat :=
  if turns.contains loop then turns else turns ++ [loop]

/-- The next event of a channel, if it is the turn of a loop to receive it. -/
def receive? (loop : Nat) : Source → Option (Event × Source)
  | .channel (e :: queue) held turns =>
    match join loop turns with
    | first :: others =>
      if first = loop then some (e, .channel queue held (others ++ [loop])) else none
    | [] => none
  | _ => none

/-- Lets a loop wait for its turn. -/
def waitTurn (loop : Nat) : Source → Source
  | .channel queue held turns => .channel queue held (join loop turns)
  | s => s

/-- The number of items and events that have not been yielded. -/
def remaining : Source → Nat
  | .scripted sessions _ => sessions.flatten.length
  | .channel queue _ _ => queue.length

end Source

end WatchCache
