import WatchCache.Proofs.Hub.Delivery

set_option autoImplicit false

/-!
# When a loop makes its subscriptions

The clock stands still while a hub settles, so all that a loop does happens at the moments at
which the clock stops.  `Timetable` says at which of them the subscriptions are made: the first
one at once, and each further one at the first moment that is not before the end of the delay
after the last one.  A loop keeps its timetable whatever it is fed and however far the clock goes
at once.
-/

namespace WatchCache

/-! ## Timetables -/

/-- The session that a subscription yields; it is empty where none is left. -/
def sessionAt (sessions : List (List Item)) (k : Nat) : List Item := sessions[k]?.getD []

/-- From when on the next subscription may follow one that was made at some time: when the loop is
woken after the delay, or when it is for its resync if there is one. -/
def Loop.next (l : Loop) (session : List Item) (time : Nat) : Option Nat :=
  if ends session then some (l.timer.after time l.backoff) else (l.deadline? time).join

/-- The times at which a loop subscribes, if the clock stops at some points. -/
structure Timetable (l : Loop) (sessions : List (List Item)) (points times : List Nat) :
    Prop where
  start : times.head? = points.head?
  next : ∀ k time, times[k]? = some time →
    times[k + 1]? = (l.next (sessionAt sessions k) time).bind fun due => points.find? (due ≤ ·)

section

variable {l : Loop} {sessions : List (List Item)} {points past : List Nat} {time : Nat}

/-- There is only one timetable. -/
theorem Timetable.unique {times other : List Nat} (h : Timetable l sessions points times)
    (h' : Timetable l sessions points other) : times = other := by
  refine List.ext_getElem? fun k => ?_
  induction k with
  | zero => rw [← List.head?_eq_getElem?, ← List.head?_eq_getElem?, h.start, h'.start]
  | succ k ih =>
    cases hk : times[k]? with
    | some time => rw [h.next k time hk, h'.next k time (ih ▸ hk)]
    | none =>
      have hle := List.getElem?_eq_none_iff.mp hk
      have hle' := List.getElem?_eq_none_iff.mp (ih ▸ hk)
      rw [List.getElem?_eq_none (by omega), List.getElem?_eq_none (by omega)]

/-- The next subscription is always later. -/
theorem Loop.lt_of_next (hresync : l.resync ≠ some 0) (hbackoff : 0 < l.backoff)
    {session : List Item} {due : Nat} (hnext : l.next session time = some due) : time < due := by
  unfold next at hnext
  split at hnext
  · cases hnext
    exact l.timer.lt_after time hbackoff
  · exact lt_of_deadline? hresync (Option.join_eq_some_iff.mp hnext)

/-- The next subscription follows after the backoff, or after the interval of the resyncs; where
the end of this delay can be told, the loop is woken at it or less than a grain later. -/
theorem Loop.next_bounds {session : List Item} {due : Nat}
    (hnext : l.next session time = some due) :
    ∃ delay, (if ends session then delay = l.backoff else l.resync = some delay) ∧
      (time + delay ≤ l.timer.latest →
        time + delay ≤ due ∧ due < time + delay + l.timer.grain) := by
  unfold next at hnext
  split at hnext
  · next hends =>
    cases hnext
    refine ⟨l.backoff, by rw [if_pos hends], fun hlatest => ?_⟩
    rw [l.timer.after_of_le hlatest]
    exact l.timer.le_roundUp (time + l.backoff)
  · next hends =>
    obtain ⟨interval, hresync, -, rfl⟩ := deadline?_eq_some_some (Option.join_eq_some_iff.mp hnext)
    exact ⟨interval, by rw [if_neg hends, hresync], fun _ => l.timer.le_roundUp (time + interval)⟩

theorem Timetable.points_ne_nil (h : Timetable l sessions points (past ++ [time])) :
    points ≠ [] := by
  rintro rfl
  have hstart := h.start
  cases past <;> cases hstart

/-- No point has come for the subscription after the last one. -/
theorem Timetable.find?_last (h : Timetable l sessions points (past ++ [time])) {due : Nat}
    (hnext : l.next (sessionAt sessions past.length) time = some due) :
    points.find? (due ≤ ·) = none := by
  have hlast := h.next past.length time (by simp)
  rw [hnext, Option.bind_some] at hlast
  rw [← hlast]
  exact List.getElem?_eq_none (by simp)

/-- A loop begins with one subscription at once. -/
theorem Timetable.begin (hresync : l.resync ≠ some 0) (hbackoff : 0 < l.backoff) (time : Nat) :
    Timetable l sessions [time] [time] where
  start := rfl
  next := by
    intro k t hk
    cases k with
    | zero =>
      cases hk
      cases hdue : l.next (sessionAt sessions 0) time with
      | none => rfl
      | some due =>
        have hlater := Loop.lt_of_next hresync hbackoff hdue
        simp [hlater]
    | succ k => simp at hk

/-- A point that comes too early changes nothing. -/
theorem Timetable.wait (h : Timetable l sessions points (past ++ [time])) {point : Nat}
    (hearly : ∀ due, l.next (sessionAt sessions past.length) time = some due → point < due) :
    Timetable l sessions (points ++ [point]) (past ++ [time]) where
  start := by rw [h.start, List.head?_append_of_ne_nil _ h.points_ne_nil]
  next := by
    intro k t hk
    have hnext := h.next k t hk
    cases hdue : l.next (sessionAt sessions k) t with
    | none =>
      rw [hdue] at hnext
      exact hnext
    | some due =>
      rw [hdue, Option.bind_some] at hnext
      rw [Option.bind_some, List.find?_append, ← hnext]
      cases hk' : (past ++ [time])[k + 1]? with
      | some t' => rfl
      | none =>
        -- only the last time has no successor, and for that the point is too early
        have hlt := (List.getElem?_eq_some_iff.mp hk).1
        have hle := List.getElem?_eq_none_iff.mp hk'
        obtain rfl : k = past.length := by
          rw [List.length_append, List.length_singleton] at hlt hle
          omega
        obtain rfl : t = time := by simpa using hk.symm
        have hpoint := hearly due hdue
        simp [hpoint]

/-- The first point that is not too early is a time to subscribe. -/
theorem Timetable.subscribe (hresync : l.resync ≠ some 0) (hbackoff : 0 < l.backoff)
    (h : Timetable l sessions points (past ++ [time])) {due point : Nat}
    (hlast : ∀ p ∈ points, p ≤ point)
    (hdue : l.next (sessionAt sessions past.length) time = some due) (hle : due ≤ point) :
    Timetable l sessions (points ++ [point]) ((past ++ [time]) ++ [point]) where
  start := by
    rw [List.head?_append_of_ne_nil _ h.points_ne_nil, ← h.start,
      List.head?_append_of_ne_nil _ (by simp)]
  next := by
    intro k t hk
    rcases Nat.lt_trichotomy k (past.length + 1) with hlt | rfl | hgt
    · rw [List.getElem?_append_left (by simpa using hlt)] at hk
      have hnext := h.next k t hk
      by_cases hend : k = past.length
      · subst hend
        obtain rfl : t = time := by simpa using hk.symm
        rw [hdue, Option.bind_some, List.find?_append, h.find?_last hdue]
        simp [hle]
      · -- the successor was found among the old points already
        have hin : k + 1 < (past ++ [time]).length := by
          rw [List.length_append, List.length_singleton]
          omega
        rw [List.getElem?_append_left hin, hnext]
        rw [List.getElem?_eq_getElem hin] at hnext
        obtain ⟨due', hdue', hfind⟩ := Option.bind_eq_some_iff.mp hnext.symm
        rw [hdue', Option.bind_some, Option.bind_some, List.find?_append, hfind]
        rfl
    · obtain rfl : t = point := by simpa using hk.symm
      rw [List.getElem?_eq_none (by simp)]
      cases hdue' : l.next (sessionAt sessions (past.length + 1)) t with
      | none => rfl
      | some due' =>
        have hlater := Loop.lt_of_next hresync hbackoff hdue'
        rw [Option.bind_some, eq_comm, List.find?_eq_none]
        intro p hp
        have hbefore : p ≤ t := by
          rcases List.mem_append.mp hp with hold | hnew
          · exact hlast p hold
          · exact Nat.le_of_eq (List.mem_singleton.mp hnew)
        simp
        omega
    · have hlt := (List.getElem?_eq_some_iff.mp hk).1
      simp only [List.length_append, List.length_singleton] at hlt
      omega

end

end WatchCache
