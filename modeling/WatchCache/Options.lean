import WatchCache.ObjectKey.Read
import WatchCache.Selector.Field
import WatchCache.Text.Basic

set_option autoImplicit false

/-!
# Options

`CacheOptions` is what all stores of a cache share: the namespace that dedicated watches are
restricted to, how often a watch is set up anew, how many changes a subscriber may be behind, and
the delay before a watch that ended is set up again.  Times are in units of a clock, which are
milliseconds unless a `Timer` is given that tells others.

`ListOptions` restricts one call that lists objects.
-/

namespace WatchCache

/-- The variables of a process; their values are bytes. -/
abbrev Environment := List (String × ByteArray)

/-- The text of a variable; bytes that are no UTF-8 are no text. -/
def Environment.text? (env : Environment) (name : String) : Option String :=
  (env.find? fun (n, _) => n = name).bind fun (_, bytes) => String.fromUTF8? bytes

/-- How those who wait for a time are woken: at the multiples of `grain` units of the clock.  No
time after `latest` can be told, which is what a clock of 63 bits of seconds has left when it has
run for a day, and a delay that would end after it is cut to `longest`, thirty years. -/
structure Timer where
  grain : Nat := 1
  grain_pos : 0 < grain := by exact Nat.succ_pos _
  latest : Nat := (9223372036854775808 - 86400) * 1000 - 1
  longest : Nat := 30 * 365 * 86400 * 1000
  longest_pos : 0 < longest := by exact Nat.succ_pos _
  deriving DecidableEq, Repr

instance : Inhabited Timer := ⟨{}⟩

namespace Timer

/-- The first moment, not before a time, at which those who wait for it are woken. -/
def roundUp (t : Timer) (time : Nat) : Nat := (time + (t.grain - 1)) / t.grain * t.grain

/-- When those who wait for a time are woken, if it can be told. -/
def until? (t : Timer) (time : Nat) : Option Nat :=
  if time ≤ t.latest then some (t.roundUp time) else none

/-- When those who wait for a delay to pass are woken. -/
def after (t : Timer) (now delay : Nat) : Nat :=
  (t.until? (now + delay)).getD (t.roundUp (now + t.longest))

end Timer

/-- What the stores of a cache share. -/
structure CacheOptions where
  ns : Option String := none
  resync : Option Nat := none
  eventBuffer : Nat := 1024
  backoff : Nat := 1000
  timer : Timer := {}
  deriving DecidableEq, Repr, Inhabited

namespace CacheOptions

/-- A time given in seconds. -/
def ofSeconds (seconds : Nat) : Nat := seconds * 1000

/-- The number in a variable. -/
def wordOf (env : Environment) (name : String) : Option Nat := (env.text? name).bind Text.word64?

/-- The options that an environment asks for; a variable that cannot be read counts as absent,
and so does a zero for the interval and for the buffer. -/
def ofEnvironment (env : Environment) : CacheOptions :=
  { ns := nonEmpty (env.text? "KCACHE_NAMESPACE")
    resync := ((wordOf env "KCACHE_RESYNC_SECS").filter (0 < ·)).map ofSeconds
    eventBuffer := ((wordOf env "KCACHE_EVENT_BUFFER").filter (0 < ·)).getD 1024
    backoff := ((wordOf env "KCACHE_WATCH_BACKOFF_SECS").map ofSeconds).getD 1000 }

end CacheOptions

/-- Restrictions for one call that lists objects. -/
structure ListOptions where
  ns : Option String := none
  labels : Option LabelSelector := none
  fields : Option FieldSelector := none
  deriving DecidableEq, Repr, Inhabited

/-- The namespace that a call is restricted to; an empty one counts as none. -/
def ListOptions.namespace? (o : ListOptions) : Option String := nonEmpty o.ns

end WatchCache
