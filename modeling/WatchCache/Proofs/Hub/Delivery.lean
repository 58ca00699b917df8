import WatchCache.Proofs.Hub.Calls
import WatchCache.Proofs.Hub.Settling

set_option autoImplicit false

/-!
# What one loop delivers

A hub with one loop is described by a `View`: the clock, what the loop is about to do, what is
left in its source, which events it has applied and how many subscriptions it has left.  `Shows`
ties a view to a hub, and `Leads` says that the loop goes from one view to another.  A loop that
has a subscription applies all of its events before it rests.
-/

namespace WatchCache

/-! ## Sessions -/

/-- The event that an item brings. -/
def Item.event? : Item → Option Event
  | .event e => some e
  | _ => none

/-- The events that a session yields before it ends. -/
def delivered (session : List Item) : List Event :=
  (session.takeWhile (· ≠ .ended)).filterMap Item.event?

/-- Whether a session ends, rather than staying open. -/
def ends (session : List Item) : Bool := session.contains .ended

@[simp] theorem delivered_nil : delivered [] = [] := rfl

@[simp] theorem ends_nil : ends [] = false := rfl

@[simp] theorem delivered_ended (items : List Item) : delivered (.ended :: items) = [] := rfl

@[simp] theorem ends_ended (items : List Item) : ends (.ended :: items) = true := rfl

/-! ## Counters -/

theorem Numbers.of_increment (n : Numbers) (s t : Series) :
    (n.increment s).of t = n.of t + if t = s then 1 else 0 := by
  unfold increment of
  by_cases heq : t = s
  · rw [heq, Table.find?_insert_self, if_pos rfl]
    rfl
  · rw [Table.find?_insert_of_ne _ _ heq, if_neg heq, Nat.add_zero]

namespace Hub

/-- What a counter stands at. -/
def counter (h : Hub) (s : Series) : Nat := h.metrics.counters.of s

theorem counter_count (h : Hub) (s t : Series) :
    (h.count s).counter t = h.counter t + if t = s then 1 else 0 :=
  Numbers.of_increment h.metrics.counters s t

theorem counter_apply {h : Hub} {id : Nat} {s : Store} (hs : h.store? id = some s) (e : Event)
    (t : Series) :
    (h.apply id e).counter t = h.counter t + if t = .events s.kind.key e.word then 1 else 0 := by
  obtain ⟨cell, hcell, rfl⟩ := Option.map_eq_some_iff.mp hs
  have hcount := Numbers.of_increment h.metrics.counters (.events cell.store.kind.key e.word) t
  simp only [apply, hcell]
  split <;> exact hcount

/-! ## Events in a row -/

/-- The hub after events for one store. -/
def applyAll (h : Hub) (id : Nat) (events : List Event) : Hub := events.foldl (·.apply id ·) h

theorem applyAll_concat (h : Hub) (id : Nat) (events : List Event) (e : Event) :
    h.applyAll id (events ++ [e]) = (h.applyAll id events).apply id e := by
  simp [applyAll]

theorem store?_applyAll (h : Hub) (id : Nat) (events : List Event) :
    (h.applyAll id events).store? id = (h.store? id).map fun s => events.foldl Store.apply s := by
  induction events using List.reverseRecOn with
  | nil => simp [applyAll]
  | append_singleton events e ih =>
    rw [applyAll_concat, store?_apply, ih, Option.map_map]
    simp [Function.comp_def]

theorem counter_applyAll {h : Hub} {id : Nat} {s : Store} (hs : h.store? id = some s)
    (events : List Event) (word : String) :
    (h.applyAll id events).counter (.events s.kind.key word) =
      h.counter (.events s.kind.key word) + events.countP (·.word = word) := by
  induction events using List.reverseRecOn with
  | nil => rfl
  | append_singleton events e ih =>
    have hthen : (h.applyAll id events).store? id = some (events.foldl Store.apply s) := by
      rw [store?_applyAll, hs]
      rfl
    rw [applyAll_concat, counter_apply hthen, Store.kind_foldl_apply, ih, List.countP_append,
      List.countP_singleton, Nat.add_assoc]
    congr 2
    by_cases hword : e.word = word
    · simp [hword]
    · simp [hword, Series.events, Ne.symm hword]

/-! ## Views -/

/-- All that matters of a hub with one loop. -/
structure View where
  now : Nat
  cancelled : List Token
  phase : Phase
  source : Source
  /-- The events that the loop has applied. -/
  events : List Event
  /-- How many subscriptions the loop has left. -/
  left : Nat

/-- A hub that began as `base` looks as a view says: its stores, topics and counters are those
that the events make of `base`, but for the counter of restarts. -/
structure Shows (base : Hub) (l : Loop) (kind : Kind) (v : View) (h : Hub) : Prop where
  now : h.now = v.now
  cancelled : h.cancelled = v.cancelled
  loops : h.loops = [{ l with phase := v.phase }]
  source : h.sources[l.source]? = some v.source
  stores : h.stores = (base.applyAll l.store v.events).stores
  topics : h.topics = (base.applyAll l.store v.events).topics
  subscribers : h.subscribers = base.subscribers
  counters : ∀ s, s ≠ .restarts kind.key →
    h.counter s = (base.applyAll l.store v.events).counter s
  restarts : h.counter (.restarts kind.key) = base.counter (.restarts kind.key) + v.left

theorem subscribers_applyAll (h : Hub) (id : Nat) (events : List Event) :
    (h.applyAll id events).subscribers = h.subscribers := by
  induction events using List.reverseRecOn with
  | nil => rfl
  | append_singleton events e ih =>
    rw [applyAll_concat]
    exact (apply_frame _ id e).2.2.2.2.1.trans ih

/-- Applying an event depends on little, and changes it alike. -/
theorem apply_congr {h r : Hub} {id : Nat} (hstores : h.stores = r.stores)
    (htopics : h.topics = r.topics) (hsubs : h.subscribers = r.subscribers) (e : Event) :
    (h.apply id e).stores = (r.apply id e).stores ∧
      (h.apply id e).topics = (r.apply id e).topics := by
  cases hcell : r.stores[id]? with
  | none =>
    simp only [apply, hstores, hcell]
    exact ⟨trivial, htopics⟩
  | some cell =>
    have hsub : h.hasSubscriber cell.topic = r.hasSubscriber cell.topic := by
      rw [hasSubscriber, hasSubscriber, hsubs]
    simp only [apply, hstores, hcell, hsub]
    split
    · exact ⟨congrArg (List.modify · _ _) hstores, congrArg (List.modify · _ _) htopics⟩
    · exact ⟨congrArg (List.modify · _ _) hstores, htopics⟩

section

variable {base : Hub} {l : Loop} {kind : Kind} {v : View} {h : Hub}

theorem Shows.store? (hv : Shows base l kind v h) :
    h.store? l.store = (base.store? l.store).map fun s => v.events.foldl Store.apply s := by
  rw [← store?_applyAll, Hub.store?, Hub.store?, hv.stores]

/-- The kind of the store is never lost. -/
theorem Shows.kind_eq (hkind : (base.store? l.store).map Store.kind = some kind)
    (hv : Shows base l kind v h) : (h.store? l.store).map Store.kind = some kind := by
  rw [hv.store?, Option.map_map, ← hkind]
  congr 1
  exact funext fun s => Store.kind_foldl_apply s v.events

theorem Shows.setPhase (hv : Shows base l kind v h) (p : Phase) :
    Shows base l kind { v with phase := p } (h.setPhase 0 p) :=
  { hv with loops := by simp [Hub.setPhase, hv.loops] }

theorem Shows.modifySource (hv : Shows base l kind v h) (f : Source → Source) :
    Shows base l kind { v with source := f v.source } (h.modifySource l.source f) :=
  { hv with source := by simp [Hub.modifySource, hv.source] }

theorem Shows.setSource (hv : Shows base l kind v h) (s : Source) :
    Shows base l kind { v with source := s }
      ({ h with sources := h.sources.set l.source s } : Hub) :=
  { hv with source := List.getElem?_set_self (List.getElem?_eq_some_iff.mp hv.source).1 }

theorem Shows.resolveWaits (hv : Shows base l kind v h) :
    Shows base l kind v h.resolveWaits := { hv with }

theorem Shows.leave (hv : Shows base l kind v h) :
    Shows base l kind { v with left := v.left + 1 } (h.count (.restarts kind.key)) :=
  { hv with
    counters := fun s hs => by
      rw [counter_count, if_neg hs]
      exact hv.counters s hs
    restarts := by
      rw [counter_count, if_pos rfl, hv.restarts]
      rfl }

theorem Shows.apply (hkind : (base.store? l.store).map Store.kind = some kind)
    (hv : Shows base l kind v h) (e : Event) :
    Shows base l kind { v with events := v.events ++ [e] } (h.apply l.store e) := by
  obtain ⟨hnow, hcancelled, hsources, hloops, hsubs, -⟩ := apply_frame h l.store e
  have hsame : h.subscribers = (base.applyAll l.store v.events).subscribers :=
    hv.subscribers.trans (subscribers_applyAll base l.store v.events).symm
  obtain ⟨hstores, htopics⟩ := apply_congr hv.stores hv.topics hsame e
  obtain ⟨s, hs, -⟩ := Option.map_eq_some_iff.mp (hv.kind_eq hkind)
  have hs' : (base.applyAll l.store v.events).store? l.store = some s := by
    rw [store?_applyAll, ← hv.store?, hs]
  refine ⟨hnow.trans hv.now, hcancelled.trans hv.cancelled, hloops.trans hv.loops, ?_, ?_, ?_,
    hsubs.trans hv.subscribers, fun t ht => ?_, ?_⟩
  · rw [hsources]
    exact hv.source
  · rw [applyAll_concat]
    exact hstores
  · rw [applyAll_concat]
    exact htopics
  · rw [applyAll_concat, counter_apply hs, counter_apply hs', hv.counters t ht]
  · rw [counter_apply hs, if_neg (by simp [Series.restarts, Series.events]), hv.restarts]
    rfl

/-! ## From view to view -/

/-- From one view the loop gets to another. -/
def Leads (base : Hub) (l : Loop) (kind : Kind) (v w : View) : Prop :=
  ∀ h, Shows base l kind v h → ∃ h', Reaches h h' ∧ Shows base l kind w h'

theorem Leads.refl (v : View) : Leads base l kind v v := fun h hv => ⟨h, .refl, hv⟩

theorem Leads.trans {v w x : View} (hvw : Leads base l kind v w) (hwx : Leads base l kind w x) :
    Leads base l kind v x := by
  intro h hv
  obtain ⟨h', hreach, hw⟩ := hvw h hv
  obtain ⟨h'', hreach', hx⟩ := hwx h' hw
  exact ⟨h'', hreach.trans hreach', hx⟩

/-- The loop of a hub that a view describes. -/
theorem Shows.loop_eq (hv : Shows base l kind v h) :
    h.loops[0]? = some { l with phase := v.phase } := by
  rw [hv.loops]
  rfl

theorem Leads.of_step {w : View}
    (hstep : ∀ h, Shows base l kind v h →
      ∃ h', Step h 0 { l with phase := v.phase } h' ∧ Shows base l kind w h') :
    Leads base l kind v w := by
  intro h hv
  obtain ⟨h', hrule, hw⟩ := hstep h hv
  exact ⟨h', .single (hrule.stepLoop_eq hv.loop_eq), hw⟩

theorem Shows.isCancelled (hv : Shows base l kind v h) :
    h.isCancelled l.token = v.cancelled.contains l.token := by
  rw [Hub.isCancelled, hv.cancelled]

/-- The kind that the loop counts its restarts under. -/
theorem Shows.kindText (hkind : (base.store? l.store).map Store.kind = some kind)
    (hv : Shows base l kind v h) :
    ((h.store? l.store).map fun s => s.kind.key).getD "" = kind.key := by
  obtain ⟨s, hs, hkey⟩ := Option.map_eq_some_iff.mp (hv.kind_eq hkind)
  rw [hs, ← hkey]
  rfl

theorem leads_start (hphase : v.phase = .opening) {deadline : Option Nat}
    (hdeadline : l.deadline? v.now = some deadline) :
    Leads base l kind v { v with
      phase := .streaming v.source.subscribe.1 deadline
      source := v.source.subscribe.2.waitTurn 0 } := by
  refine Leads.of_step fun h hv => ⟨_, .start hphase (hv.now ▸ hdeadline), ?_⟩
  have hopened := (hv.modifySource fun s => s.subscribe.2.waitTurn 0).setPhase
    (.streaming v.source.subscribe.1 deadline)
  unfold openStream
  rw [hv.source]
  exact hopened

theorem leads_breakDown (hphase : v.phase = .opening) (hover : l.deadline? v.now = none) :
    Leads base l kind v
      { v with phase := .stopped, source := v.source.subscribe.2.leave 0 } := by
  refine Leads.of_step fun h hv => ⟨_, .breakDown hphase (hv.now ▸ hover), ?_⟩
  exact ((hv.modifySource (·.subscribe.2)).modifySource (·.leave 0)).setPhase .stopped

theorem leads_stop (hopened : v.phase ≠ .opening) (hrunning : v.phase ≠ .stopped)
    (hcancelled : v.cancelled.contains l.token = true) :
    Leads base l kind v { v with phase := .stopped, source := v.source.leave 0 } := by
  refine Leads.of_step fun h hv => ⟨_, .stop hopened hrunning ?_, ?_⟩
  · exact hv.isCancelled.trans hcancelled
  · exact (hv.modifySource (·.leave 0)).setPhase .stopped

section

variable (hlive : v.cancelled.contains l.token = false)

include hlive

theorem leads_failure {error : CacheError} {items : List Item} {deadline : Option Nat}
    (hphase : v.phase = .streaming (.failure error :: items) deadline) :
    Leads base l kind v { v with phase := .streaming items deadline } := by
  refine Leads.of_step fun h hv => ⟨_, .item hphase (hv.isCancelled.trans hlive), ?_⟩
  exact hv.setPhase (.streaming items deadline)

theorem leads_wake {due : Nat} (hphase : v.phase = .backingOff due) (hdue : due ≤ v.now) :
    Leads base l kind v { v with phase := .opening } := by
  refine Leads.of_step fun h hv => ⟨_, .wake hphase (hv.isCancelled.trans hlive) ?_, ?_⟩
  · rw [hv.now]
    exact hdue
  · exact hv.setPhase .opening

variable (hkind : (base.store? l.store).map Store.kind = some kind)

include hkind

theorem leads_event {e : Event} {items : List Item} {deadline : Option Nat}
    (hphase : v.phase = .streaming (.event e :: items) deadline) :
    Leads base l kind v
      { v with phase := .streaming items deadline, events := v.events ++ [e] } := by
  refine Leads.of_step fun h hv => ⟨_, .item hphase (hv.isCancelled.trans hlive), ?_⟩
  exact (hv.setPhase (.streaming items deadline)).apply hkind e

theorem leads_ended {items : List Item} {deadline : Option Nat}
    (hphase : v.phase = .streaming (.ended :: items) deadline) :
    Leads base l kind v
      { v with phase := .backingOff (l.timer.after v.now l.backoff), left := v.left + 1 } := by
  refine Leads.of_step fun h hv => ⟨_, .item hphase (hv.isCancelled.trans hlive), ?_⟩
  have hended := (hv.setPhase (.backingOff (l.timer.after v.now l.backoff))).leave
  simp only [takeItem, hv.kindText hkind, hv.now]
  exact hended

theorem leads_receive {e : Event} {source : Source} {deadline : Option Nat}
    (hphase : v.phase = .streaming [] deadline)
    (hreceive : v.source.receive? 0 = some (e, source)) :
    Leads base l kind v { v with source := source, events := v.events ++ [e] } := by
  refine Leads.of_step fun h hv => ⟨h.takeEvent { l with phase := v.phase } e source,
    .event hphase (hv.isCancelled.trans hlive) ?_, ?_⟩
  · show (h.sources[l.source]?).bind _ = _
    rw [hv.source]
    exact hreceive
  · exact (hv.setSource source).apply hkind e

theorem leads_resync {deadline : Option Nat} (hphase : v.phase = .streaming [] deadline)
    (hsilent : v.source.receive? 0 = none) (hdue : deadline.any (· ≤ v.now) = true) :
    Leads base l kind v
      { v with phase := .opening, source := v.source.leave 0, left := v.left + 1 } := by
  refine Leads.of_step fun h hv => ⟨_, .resync hphase (hv.isCancelled.trans hlive) ?_ ?_, ?_⟩
  · show (h.sources[l.source]?).bind _ = _
    rw [hv.source]
    exact hsilent
  · rw [hv.now]
    exact hdue
  · have hleft := ((hv.modifySource (·.leave 0)).setPhase .opening).leave
    simp only [reopen, hv.kindText hkind]
    exact hleft

/-! ## Whole sessions -/

/-- All items of a session are taken before the loop rests, up to where the session ends. -/
theorem leads_session {items : List Item} {deadline : Option Nat}
    (hphase : v.phase = .streaming items deadline) :
    Leads base l kind v { v with
      phase :=
        if ends items then .backingOff (l.timer.after v.now l.backoff) else .streaming [] deadline
      events := v.events ++ delivered items
      left := v.left + if ends items then 1 else 0 } := by
  induction items generalizing v with
  | nil =>
    have hsame : v = { v with phase := .streaming [] deadline } := by rw [← hphase]
    simp only [ends_nil, delivered_nil, List.append_nil]
    exact hsame ▸ Leads.refl v
  | cons item rest ih =>
    cases item with
    | event e =>
      have hrest := ih (v := { v with
        phase := .streaming rest deadline, events := v.events ++ [e] }) hlive rfl
      simp only [List.append_assoc, List.singleton_append] at hrest
      exact (leads_event hlive hkind hphase).trans hrest
    | failure error =>
      exact (leads_failure hlive hphase).trans
        (ih (v := { v with phase := .streaming rest deadline }) hlive rfl)
    | ended =>
      simp only [ends_ended, delivered_ended, List.append_nil]
      exact leads_ended hlive hkind hphase

/-- All events of a channel are taken before the loop rests. -/
theorem leads_queue {queue : List Event} {held : Bool} {deadline : Option Nat}
    (hphase : v.phase = .streaming [] deadline) (hsource : v.source = .channel queue held [0]) :
    Leads base l kind v
      { v with source := .channel [] held [0], events := v.events ++ queue } := by
  induction queue generalizing v with
  | nil =>
    have hsame : v = { v with source := .channel [] held [0] } := by rw [← hsource]
    rw [List.append_nil]
    exact hsame ▸ Leads.refl v
  | cons e rest ih =>
    have hreceive : v.source.receive? 0 = some (e, .channel rest held [0]) := by
      rw [hsource]
      rfl
    have hrest := ih (v := { v with
      source := .channel rest held [0], events := v.events ++ [e] }) hlive hphase rfl
    simp only [List.append_assoc, List.singleton_append] at hrest
    exact (leads_receive hlive hkind hphase hreceive).trans hrest

end

/-! ## Rest -/

/-- The loop cannot make a step. -/
inductive View.AtRest (l : Loop) (v : View) : Prop
  | stopped (hphase : v.phase = .stopped)
  | waiting (deadline : Option Nat) (hphase : v.phase = .streaming [] deadline)
      (hlive : v.cancelled.contains l.token = false) (hsilent : v.source.receive? 0 = none)
      (hearly : deadline.any (· ≤ v.now) = false)
  | backingOff (due : Nat) (hphase : v.phase = .backingOff due)
      (hlive : v.cancelled.contains l.token = false) (hearly : v.now < due)

theorem Shows.rests (hv : Shows base l kind v h) (hrest : v.AtRest l) : h.stepLoop 0 = none := by
  have hcancelled := hv.isCancelled
  unfold stepLoop
  rw [hv.loop_eq]
  cases hrest with
  | stopped hphase => simp only [hphase]
  | waiting deadline hphase hlive hsilent hearly =>
    have hnothing : (h.sources[l.source]?).bind (·.receive? 0) = none := by
      rw [hv.source]
      exact hsilent
    rw [hlive] at hcancelled
    simp [hphase, hcancelled, stepStream, hnothing, hv.now, hearly]
  | backingOff due hphase hlive hearly =>
    rw [hlive] at hcancelled
    simp [hphase, hcancelled, hv.now, Nat.not_le.mpr hearly]

/-- The loop settles where it comes to rest. -/
theorem Shows.settle {w : View} (hresync : l.resync ≠ some 0) (hv : Shows base l kind v h)
    (hleads : Leads base l kind v w) (hrest : w.AtRest l) : Shows base l kind w h.settle := by
  obtain ⟨h', hreach, hw⟩ := hleads h hv
  rw [settle_of_reaches hv.loops hresync hreach (hw.rests hrest)]
  exact hw.resolveWaits

end

end Hub

end WatchCache
