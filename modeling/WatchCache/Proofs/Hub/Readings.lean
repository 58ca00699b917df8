import WatchCache.Proofs.Hub.Ledger

set_option autoImplicit false

/-!
# What is measured

A hub counts events and restarts and shows the size of a store in a gauge; lists and indices
change neither the counters nor the gauges.  A step of a loop changes them as its delivery does,
but for one more restart.
-/

namespace WatchCache.Hub

/-- The counters and the gauges, without the histograms. -/
def readings (h : Hub) : Numbers × Numbers := (h.metrics.counters, h.metrics.gauges)

/-- What a gauge shows, if it was ever set. -/
def gauge? (h : Hub) (s : Series) : Option Nat := h.metrics.gauges.find? s

section

variable {h h' : Hub}

theorem counter_of_readings (hsame : h'.readings = h.readings) (s : Series) :
    h'.counter s = h.counter s := congrArg (fun r : Numbers × Numbers => r.1.of s) hsame

theorem gauge?_of_readings (hsame : h'.readings = h.readings) (s : Series) :
    h'.gauge? s = h.gauge? s := congrArg (fun r : Numbers × Numbers => r.2.find? s) hsame

theorem readings_list (h : Hub) (id : Nat) (o : ListOptions) :
    (h.list id o).2.readings = h.readings := by
  unfold list
  split
  · rfl
  · split <;> rfl

theorem readings_tryStore (h : Hub) (id : Nat) (f : Store → Answer Store) :
    (h.tryStore id f).2.readings = h.readings := by
  unfold tryStore
  split
  · rfl
  · split <;> rfl

theorem readings_receive (h : Hub) (sub : Nat) : (h.receive sub).2.readings = h.readings := by
  unfold receive
  split
  · split <;> rfl
  · rfl

theorem readings_meet (h : Hub) (s : Stimulus) : (h.meet s).readings = h.readings := by
  cases s with
  | advance ms => rfl
  | cancel token => rfl
  | feed source e =>
    rcases h.meet_feed_cases source e with hsame | ⟨queue, held, turns, -, hfed⟩
    · rw [hsame]
    · rw [hfed]
      rfl

/-- An event sets the gauge of its store to the size that the store then has. -/
theorem gauge?_apply {id : Nat} {s : Store} (hs : h.store? id = some s) (e : Event) (t : Series) :
    (h.apply id e).gauge? t =
      if t = .objects s.kind.key then some (s.apply e).size else h.gauge? t := by
  obtain ⟨cell, hcell, rfl⟩ := Option.map_eq_some_iff.mp hs
  have hset := Table.find?_insert h.metrics.gauges (.objects cell.store.kind.key) t
    (cell.store.apply e).size
  simp only [apply, hcell]
  split <;> exact hset

theorem apply_of_none {id : Nat} (hnone : h.store? id = none) (e : Event) : h.apply id e = h := by
  have hcell : h.stores[id]? = none := Option.map_eq_none_iff.mp hnone
  simp only [apply, hcell]

/-- What is measured of an event comes from the stores and from what was measured before. -/
theorem readings_apply_congr {r : Hub} (hstores : h.stores = r.stores)
    (hsame : h.readings = r.readings) (id : Nat) (e : Event) :
    (h.apply id e).readings = (r.apply id e).readings := by
  have hcounters : h.metrics.counters = r.metrics.counters := congrArg Prod.fst hsame
  have hgauges : h.metrics.gauges = r.metrics.gauges := congrArg Prod.snd hsame
  unfold apply
  rw [hstores]
  cases r.stores[id]? with
  | none => exact hsame
  | some cell =>
    dsimp only
    split <;> split <;>
      simp [readings, publish, setStore, Metrics.count, Metrics.gauge, hcounters, hgauges]

/-- A step measures what its delivery does, and counts a restart besides or not. -/
theorem readings_stepOnce (h : Hub) (id : Nat) :
    (h.stepOnce id).readings = (h.deliverAll (h.delivery? id).toList).readings ∨
      ∃ kind, (h.stepOnce id).readings =
        ((h.deliverAll (h.delivery? id).toList).count (.restarts kind)).readings := by
  rcases h.stepOnce_cases id with ⟨hrest, hsame⟩ | ⟨l, hl, hstep⟩
  · rw [hsame, delivery?_eq_none_of_rest hrest]
    exact Or.inl rfl
  have hnothing (hnone : h.nextEvent? id l = none) :
      h.deliverAll (h.delivery? id).toList = h := by simp [delivery?, hl, hnone]
  have hsomething {e : Event} (hsome : h.nextEvent? id l = some e) :
      h.deliverAll (h.delivery? id).toList = h.apply l.store e := by
    simp [delivery?, hl, hsome]
  generalize h.stepOnce id = next at hstep
  cases hstep with
  | start hphase _ | breakDown hphase _ =>
    rw [hnothing (by simp [nextEvent?, hphase])]
    exact Or.inl rfl
  | stop _ _ hcancelled =>
    rw [hnothing (by simp [nextEvent?, hcancelled])]
    exact Or.inl rfl
  | @item item items deadline hphase hlive =>
    have hnext : h.nextEvent? id l = item.event? := by simp [nextEvent?, hlive, hphase]
    cases item with
    | event e =>
      rw [hsomething hnext]
      refine Or.inl
        (readings_apply_congr (h := h.setPhase id (.streaming items deadline)) ?_ ?_ _ e) <;>
        rfl
    | failure error =>
      rw [hnothing hnext]
      exact Or.inl rfl
    | ended =>
      rw [hnothing hnext]
      exact Or.inr ⟨_, rfl⟩
  | @event deadline e source hphase hlive hreceive =>
    have hnext : h.nextEvent? id l = some e := by simp [nextEvent?, hlive, hphase, hreceive]
    rw [hsomething hnext]
    refine Or.inl (readings_apply_congr (h := { h with sources := h.sources.set l.source source })
      ?_ ?_ l.store e) <;> rfl
  | resync hphase hlive hsilent _ =>
    rw [hnothing (by simp [nextEvent?, hlive, hphase, hsilent])]
    exact Or.inr ⟨_, rfl⟩
  | wake hphase hlive _ =>
    rw [hnothing (by simp [nextEvent?, hlive, hphase])]
    exact Or.inl rfl

/-- Nothing but events and restarts is counted by a step. -/
theorem counter_stepOnce (h : Hub) (id : Nat) {s : Series} (hevents : ∀ k w, s ≠ .events k w)
    (hrestarts : ∀ k, s ≠ .restarts k) : (h.stepOnce id).counter s = h.counter s := by
  have hdelivered (ds : List Delivery) (h : Hub) : (h.deliverAll ds).counter s = h.counter s := by
    induction ds generalizing h with
    | nil => rfl
    | cons d rest ih =>
      refine (ih (h.apply d.store d.event)).trans ?_
      cases hstore : h.store? d.store with
      | none => rw [apply_of_none hstore]
      | some store => rw [counter_apply hstore, if_neg (hevents _ _), Nat.add_zero]
  rcases h.readings_stepOnce id with hsame | ⟨kind, hcounted⟩
  · rw [counter_of_readings hsame, hdelivered]
  · rw [counter_of_readings hcounted, counter_count, if_neg (hrestarts kind), hdelivered,
      Nat.add_zero]

theorem gauge?_stepOnce (h : Hub) (id : Nat) (s : Series) :
    (h.stepOnce id).gauge? s = (h.deliverAll (h.delivery? id).toList).gauge? s := by
  rcases h.readings_stepOnce id with hsame | ⟨kind, hcounted⟩
  · exact gauge?_of_readings hsame s
  · exact gauge?_of_readings hcounted s

end

end WatchCache.Hub
