import WatchCache.Table

set_option autoImplicit false

/-!
# Metrics

What the cache counts: counters only grow, gauges show the last value, and of a histogram only
the number of its records is kept.  A series is a name with labels.
-/

namespace WatchCache

/-- A series of measurements. -/
structure Series where
  name : String
  labels : List (String × String) := []
  deriving DecidableEq, Repr, Inhabited

/-- The written form of a series. -/
def Series.text (s : Series) : String :=
  s.name ++ "\x7b" ++ ",".intercalate (s.labels.map fun (k, v) => k ++ "=" ++ v) ++ "\x7d"

/-- Numbers by series. -/
abbrev Numbers := Table Series Nat

/-- The number of a series; a series that was never touched stands at zero. -/
def Numbers.of (n : Numbers) (s : Series) : Nat := (n.find? s).getD 0

/-- Adds one to a series. -/
def Numbers.increment (n : Numbers) (s : Series) : Numbers := n.insert s (n.of s + 1)

/-- All measurements. -/
structure Metrics where
  counters : Numbers := []
  gauges : Numbers := []
  samples : Numbers := []
  deriving DecidableEq, Repr, Inhabited

namespace Metrics

/-- Adds one to a counter. -/
def count (m : Metrics) (s : Series) : Metrics := { m with counters := m.counters.increment s }

/-- Sets a gauge. -/
def gauge (m : Metrics) (s : Series) (value : Nat) : Metrics :=
  { m with gauges := m.gauges.insert s value }

/-- Adds a record to a histogram. -/
def sample (m : Metrics) (s : Series) : Metrics := { m with samples := m.samples.increment s }

end Metrics

/-! ## The series of the cache -/

/-- The events that stores of a kind have applied. -/
def Series.events (kind word : String) : Series :=
  ⟨"store_events_total", [("gvk", kind), ("kind", word)]⟩

/-- The objects in the store of a kind. -/
def Series.objects (kind : String) : Series := ⟨"store_objects", [("gvk", kind)]⟩

/-- How often the watch of a kind was set up anew. -/
def Series.restarts (kind : String) : Series := ⟨"watch_restarts_total", [("gvk", kind)]⟩

/-- The lists that stores have answered. -/
def Series.lists : Series := ⟨"store_list_ms", []⟩

/-- The reads by where they were served. -/
def Series.reads (path : String) : Series := ⟨"cache_reads_total", [("path", path)]⟩

/-- The remote fetches by how they ended. -/
def Series.refills (outcome : String) : Series := ⟨"cache_refills_total", [("outcome", outcome)]⟩

end WatchCache
