import WatchCache.Store.Basic

set_option autoImplicit false

/-!
# Topics

Changes are published on topics.  A topic remembers the last changes, as many as its capacity
says; a subscriber that is further behind loses the oldest and is told how many.  Nothing is
published while a topic has no subscriber.
-/

namespace WatchCache

/-- The changes published so far, and how many of the last ones can still be received. -/
structure Topic where
  capacity : Nat
  log : List Change := []
  deriving DecidableEq, Repr, Inhabited

/-- The topic for a buffer of some size, which is at least one and rounded up to a power of
two. -/
def Topic.ofBuffer (buffer : Nat) : Topic := { capacity := (max buffer 1).nextPowerOfTwo }

/-- A subscriber of a topic and how many of its changes are behind it. -/
structure Subscriber where
  topic : Nat
  next : Nat
  deriving DecidableEq, Repr, Inhabited

/-- What a subscriber receives. -/
inductive Received where
  | change (change : Change)
  /-- So many changes were lost. -/
  | lagged (count : Nat)
  deriving DecidableEq, Repr, Inhabited

/-- All that a subscriber at some position receives now. -/
def Topic.receive (t : Topic) (next : Nat) : List Received :=
  let oldest := t.log.length - t.capacity
  if next < oldest then .lagged (oldest - next) :: (t.log.drop oldest).map .change
  else (t.log.drop next).map .change

end WatchCache
