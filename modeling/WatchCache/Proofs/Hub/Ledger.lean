import WatchCache.Proofs.Hub.Delivery
import WatchCache.Proofs.Hub.Stimulus

set_option autoImplicit false

/-!
# The ledger of a hub

The loops of a hub make their steps one by one, in any order, while stimuli come, further loops
are started and the outside lets go of channels.  `play` is the hub after such acts, and `ledger`
lists which loop applied which event, in order.  The ledger says all that became of the stores:
whatever happened in between, they are what the events of the ledger make of them.
-/

namespace WatchCache.Hub

/-! ## The event of a step -/

/-- An event that a loop has taken from its source and applied to its store. -/
structure Delivery where
  loop : Nat
  source : Nat
  store : Nat
  event : Event
  deriving DecidableEq, Repr

/-- The event that a loop applies with its next step, if that step applies one. -/
def nextEvent? (h : Hub) (id : Nat) (l : Loop) : Option Event :=
  if h.isCancelled l.token then none
  else match l.phase with
    | .streaming (item :: _) _ => item.event?
    | .streaming [] _ => ((h.sources[l.source]?).bind (·.receive? id)).map Prod.fst
    | _ => none

/-- What the next step of a loop delivers. -/
def delivery? (h : Hub) (id : Nat) : Option Delivery :=
  (h.loops[id]?).bind fun l => (h.nextEvent? id l).map fun e => ⟨id, l.source, l.store, e⟩

theorem delivery?_eq_some_iff {h : Hub} {id : Nat} {d : Delivery} :
    h.delivery? id = some d ↔
      ∃ l, h.loops[id]? = some l ∧ h.nextEvent? id l = some d.event ∧ d.loop = id ∧
        d.source = l.source ∧ d.store = l.store := by
  unfold delivery?
  rw [Option.bind_eq_some_iff]
  refine exists_congr fun l => and_congr_right fun _ => ?_
  rw [Option.map_eq_some_iff]
  constructor
  · rintro ⟨e, he, rfl⟩
    exact ⟨he, rfl, rfl, rfl⟩
  · rintro ⟨he, hloop, hsource, hstore⟩
    obtain ⟨loop, source, store, event⟩ := d
    obtain rfl : loop = id := hloop
    obtain rfl : source = l.source := hsource
    obtain rfl : store = l.store := hstore
    exact ⟨event, he, rfl⟩

/-- A loop that has an event to apply can make a step. -/
theorem exists_step_of_nextEvent? {h : Hub} {id : Nat} {l : Loop} {e : Event}
    (hnext : h.nextEvent? id l = some e) : ∃ h', Step h id l h' := by
  unfold nextEvent? at hnext
  split at hnext
  · cases hnext
  · next hlive =>
    rw [Bool.not_eq_true] at hlive
    split at hnext
    · next item items deadline hphase => exact ⟨_, .item hphase hlive⟩
    · next deadline hphase =>
      obtain ⟨⟨e', source⟩, hreceive, -⟩ := Option.map_eq_some_iff.mp hnext
      exact ⟨_, .event hphase hlive hreceive⟩
    · cases hnext

theorem delivery?_eq_none_of_rest {h : Hub} {id : Nat} (hrest : h.stepLoop id = none) :
    h.delivery? id = none := by
  by_contra hne
  obtain ⟨d, hd⟩ := Option.ne_none_iff_exists'.mp hne
  obtain ⟨l, hl, hnext, -⟩ := delivery?_eq_some_iff.mp hd
  obtain ⟨h', hstep⟩ := exists_step_of_nextEvent? hnext
  rw [hstep.stepLoop_eq hl] at hrest
  cases hrest

/-! ## What hubs have in common -/

/-- Two hubs have the same stores, the same was published in them, and as many events counted. -/
structure Alike (h r : Hub) : Prop where
  stores : h.stores = r.stores
  topics : h.topics = r.topics
  subscribers : h.subscribers = r.subscribers
  counters : ∀ kind word, h.counter (.events kind word) = r.counter (.events kind word)

theorem Alike.refl (h : Hub) : Alike h h := ⟨rfl, rfl, rfl, fun _ _ => rfl⟩

theorem Alike.trans {h r q : Hub} (hr : Alike h r) (hq : Alike r q) : Alike h q where
  stores := hr.stores.trans hq.stores
  topics := hr.topics.trans hq.topics
  subscribers := hr.subscribers.trans hq.subscribers
  counters := fun kind word => (hr.counters kind word).trans (hq.counters kind word)

theorem alike_setPhase (h : Hub) (id : Nat) (p : Phase) : Alike (h.setPhase id p) h :=
  ⟨rfl, rfl, rfl, fun _ _ => rfl⟩

theorem alike_modifySource (h : Hub) (source : Nat) (f : Source → Source) :
    Alike (h.modifySource source f) h :=
  ⟨rfl, rfl, rfl, fun _ _ => rfl⟩

/-- One more restart is no event. -/
theorem Alike.count_restarts {h r : Hub} (halike : Alike h r) (kind : String) :
    Alike (h.count (.restarts kind)) r where
  stores := halike.stores
  topics := halike.topics
  subscribers := halike.subscribers
  counters := by
    intro kind' word
    rw [counter_count, if_neg (by simp [Series.events, Series.restarts])]
    exact halike.counters kind' word

theorem Alike.apply {h r : Hub} (halike : Alike h r) (id : Nat) (e : Event) :
    Alike (h.apply id e) (r.apply id e) := by
  obtain ⟨hstores, htopics⟩ :=
    @apply_congr h r id halike.stores halike.topics halike.subscribers e
  obtain ⟨-, -, -, -, hsubs, -⟩ := apply_frame h id e
  obtain ⟨-, -, -, -, hsubs', -⟩ := apply_frame r id e
  refine ⟨hstores, htopics, hsubs.trans (halike.subscribers.trans hsubs'.symm), ?_⟩
  intro kind word
  have hsame : h.store? id = r.store? id := by rw [Hub.store?, Hub.store?, halike.stores]
  cases hs : r.store? id with
  | none =>
    have hnone : ∀ g : Hub, g.store? id = none → g.apply id e = g := by
      intro g hg
      have hcell : g.stores[id]? = none := Option.map_eq_none_iff.mp hg
      simp only [Hub.apply, hcell]
    rw [hnone h (hsame.trans hs), hnone r hs]
    exact halike.counters kind word
  | some s =>
    rw [counter_apply hs, counter_apply (hsame.trans hs), halike.counters kind word]

/-- No step has to do with waits. -/
theorem Step.waits {h h' : Hub} {id : Nat} {l : Loop} (hstep : Step h id l h') :
    h'.waits = h.waits := by
  cases hstep with
  | start _ _ | breakDown _ _ | stop _ _ _ | resync _ _ _ _ | wake _ _ _ => rfl
  | @item item items deadline _ _ =>
    cases item with
    | event e => exact (apply_frame _ _ _).2.2.2.2.2
    | failure error => rfl
    | ended => rfl
  | event _ _ _ => exact (apply_frame _ _ _).2.2.2.2.2

/-- A step takes no time. -/
theorem Step.now_eq {h h' : Hub} {id : Nat} {l : Loop} (hstep : Step h id l h') :
    h'.now = h.now := by
  cases hstep with
  | start _ _ | breakDown _ _ | stop _ _ _ | resync _ _ _ _ | wake _ _ _ => rfl
  | @item item items deadline _ _ =>
    cases item with
    | event e => exact (apply_frame _ _ _).1
    | failure error => rfl
    | ended => rfl
  | event _ _ _ => exact (apply_frame _ _ _).1

/-! ## Deliveries -/

/-- The hub in which deliveries were made and nothing else happened. -/
def deliverAll (h : Hub) (ds : List Delivery) : Hub :=
  ds.foldl (fun h d => h.apply d.store d.event) h

@[simp] theorem deliverAll_nil (h : Hub) : h.deliverAll [] = h := rfl

@[simp] theorem deliverAll_singleton (h : Hub) (d : Delivery) :
    h.deliverAll [d] = h.apply d.store d.event := rfl

theorem deliverAll_append (h : Hub) (first second : List Delivery) :
    h.deliverAll (first ++ second) = (h.deliverAll first).deliverAll second := List.foldl_append

theorem Alike.deliverAll {h r : Hub} (halike : Alike h r) (ds : List Delivery) :
    Alike (h.deliverAll ds) (r.deliverAll ds) := by
  induction ds generalizing h r with
  | nil => exact halike
  | cons d rest ih => exact ih (halike.apply d.store d.event)

/-- The events that a store was given, in order. -/
def eventsFor (store : Nat) (ds : List Delivery) : List Event :=
  (ds.filter (·.store = store)).map Delivery.event

theorem eventsFor_append (store : Nat) (first second : List Delivery) :
    eventsFor store (first ++ second) = eventsFor store first ++ eventsFor store second := by
  simp [eventsFor]

/-- Nothing was delivered to a store that was not there. -/
theorem eventsFor_of_low {ds : List Delivery} {floor : Nat} (hlow : ∀ d ∈ ds, d.store < floor)
    {store : Nat} (hge : floor ≤ store) : eventsFor store ds = [] := by
  rw [eventsFor, List.map_eq_nil_iff, List.filter_eq_nil_iff]
  intro d hd hsame
  have hstore : d.store = store := of_decide_eq_true hsame
  have hless := hlow d hd
  omega

/-- A store is what the events that it was given make of it. -/
theorem store?_deliverAll (h : Hub) (ds : List Delivery) (id : Nat) :
    (h.deliverAll ds).store? id =
      (h.store? id).map fun s => (eventsFor id ds).foldl Store.apply s := by
  induction ds generalizing h with
  | nil => simp [eventsFor]
  | cons d rest ih =>
    show ((h.apply d.store d.event).deliverAll rest).store? id = _
    rw [ih, store?_apply, Option.map_map]
    congr 1
    funext s
    by_cases heq : d.store = id <;> simp [eventsFor, heq]

/-- A step makes its delivery, and leaves all stores alone if it has none. -/
theorem Step.alike {h h' : Hub} {id : Nat} {l : Loop} (hl : h.loops[id]? = some l)
    (hstep : Step h id l h') : Alike h' (h.deliverAll (h.delivery? id).toList) := by
  have hnothing (hnone : h.nextEvent? id l = none) :
      h.deliverAll (h.delivery? id).toList = h := by simp [delivery?, hl, hnone]
  have hsomething {e : Event} (hsome : h.nextEvent? id l = some e) :
      h.deliverAll (h.delivery? id).toList = h.apply l.store e := by
    simp [delivery?, hl, hsome]
  cases hstep with
  | start hphase _ =>
    rw [hnothing (by simp [nextEvent?, hphase])]
    exact (alike_setPhase _ id _).trans (alike_modifySource h l.source _)
  | breakDown hphase _ =>
    rw [hnothing (by simp [nextEvent?, hphase])]
    exact (alike_setPhase _ id .stopped).trans
      ((alike_modifySource _ l.source (·.leave id)).trans (alike_modifySource h l.source _))
  | stop _ _ hcancelled =>
    rw [hnothing (by simp [nextEvent?, hcancelled])]
    exact (alike_setPhase _ id .stopped).trans (alike_modifySource h l.source _)
  | @item item items deadline hphase hlive =>
    have hnext : h.nextEvent? id l = item.event? := by simp [nextEvent?, hlive, hphase]
    cases item with
    | event e =>
      rw [hsomething hnext]
      exact (alike_setPhase h id (.streaming items deadline)).apply l.store e
    | failure error =>
      rw [hnothing hnext]
      exact alike_setPhase h id (.streaming items deadline)
    | ended =>
      rw [hnothing hnext]
      exact (alike_setPhase h id (.backingOff (l.timer.after h.now l.backoff))).count_restarts _
  | @event deadline e source hphase hlive hreceive =>
    have hnext : h.nextEvent? id l = some e := by simp [nextEvent?, hlive, hphase, hreceive]
    have hsame : Alike { h with sources := h.sources.set l.source source } h :=
      ⟨rfl, rfl, rfl, fun _ _ => rfl⟩
    rw [hsomething hnext]
    exact hsame.apply l.store e
  | resync hphase hlive hsilent _ =>
    rw [hnothing (by simp [nextEvent?, hlive, hphase, hsilent])]
    have hleft := (alike_setPhase _ id .opening).trans (alike_modifySource h l.source (·.leave id))
    exact hleft.count_restarts _
  | wake hphase hlive _ =>
    rw [hnothing (by simp [nextEvent?, hlive, hphase])]
    exact alike_setPhase h id .opening

/-! ## Acts -/

/-- The hub after a stimulus, before any loop goes on. -/
def meet (h : Hub) : Stimulus → Hub
  | .advance ms => h.advance ms
  | .cancel token => h.cancel token
  | .feed source e =>
    match h.feed source e with
    | .ok h => h
    | .error _ => h

/-- The hub after one step of a loop, if the loop can make one. -/
def stepOnce (h : Hub) (id : Nat) : Hub := (h.stepLoop id).getD h

/-- What happens to a hub, one thing at a time. -/
inductive Act where
  | outside (s : Stimulus)
  | step (id : Nat)
  | start (l : Loop)
  | release (source : Nat)

/-- The hub after an act. -/
def act (h : Hub) : Act → Hub
  | .outside s => h.meet s
  | .step id => h.stepOnce id
  | .start l => (h.spawn l).2
  | .release source => h.release source

/-- The hub after acts. -/
def play (h : Hub) (acts : List Act) : Hub := acts.foldl act h

/-- What an act delivers. -/
def delivers (h : Hub) : Act → List Delivery
  | .step id => (h.delivery? id).toList
  | _ => []

/-- All deliveries of acts, in order. -/
def ledger : Hub → List Act → List Delivery
  | _, [] => []
  | h, a :: rest => h.delivers a ++ ledger (h.act a) rest

@[simp] theorem play_nil (h : Hub) : h.play [] = h := rfl

@[simp] theorem play_concat (h : Hub) (acts : List Act) (a : Act) :
    h.play (acts ++ [a]) = (h.play acts).act a := by
  simp [play]

@[simp] theorem ledger_nil (h : Hub) : h.ledger [] = [] := rfl

@[simp] theorem ledger_concat (h : Hub) (acts : List Act) (a : Act) :
    h.ledger (acts ++ [a]) = h.ledger acts ++ (h.play acts).delivers a := by
  induction acts generalizing h with
  | nil => simp [ledger]
  | cons first rest ih =>
    rw [List.cons_append, ledger, ih, ledger, List.append_assoc]
    rfl

theorem stepOnce_of_rest {h : Hub} {id : Nat} (hrest : h.stepLoop id = none) :
    h.stepOnce id = h := by
  rw [stepOnce, hrest]
  rfl

/-- A loop makes a step as one of the rules says, or rests. -/
theorem stepOnce_cases (h : Hub) (id : Nat) :
    (h.stepLoop id = none ∧ h.stepOnce id = h) ∨
      ∃ l, h.loops[id]? = some l ∧ Step h id l (h.stepOnce id) := by
  cases hstep : h.stepLoop id with
  | none => exact Or.inl ⟨rfl, stepOnce_of_rest hstep⟩
  | some h' =>
    have hsame : h.stepOnce id = h' := by simp [stepOnce, hstep]
    exact Or.inr (hsame ▸ Step.of_stepLoop hstep)

theorem alike_stepOnce (h : Hub) (id : Nat) :
    Alike (h.stepOnce id) (h.deliverAll (h.delivery? id).toList) := by
  rcases h.stepOnce_cases id with ⟨hrest, hsame⟩ | ⟨l, hl, hstep⟩
  · rw [hsame, delivery?_eq_none_of_rest hrest]
    exact .refl h
  · exact hstep.alike hl

/-- An event that comes from outside is refused, or goes to the end of the queue of a channel. -/
theorem meet_feed_cases (h : Hub) (source : Nat) (e : Event) :
    h.meet (.feed source e) = h ∨
      ∃ queue held turns, h.sources[source]? = some (.channel queue held turns) ∧
        h.meet (.feed source e) =
          { h with sources := h.sources.set source (.channel (queue ++ [e]) held turns) } := by
  rw [meet]
  split
  · next hfeed => exact Or.inr (feed_ok hfeed)
  · exact Or.inl rfl

theorem loops_meet (h : Hub) (s : Stimulus) : (h.meet s).loops = h.loops := by
  cases s with
  | advance ms => rfl
  | cancel token => rfl
  | feed source e =>
    rcases h.meet_feed_cases source e with hsame | ⟨queue, held, turns, -, hfed⟩
    · rw [hsame]
    · rw [hfed]

/-! ### Tokens stay cancelled -/

theorem isCancelled_congr {g h : Hub} (hsame : g.cancelled = h.cancelled) (token : Token) :
    g.isCancelled token = h.isCancelled token := by
  rw [isCancelled, isCancelled, hsame]

theorem isCancelled_meet {h : Hub} {token : Token} (hcancelled : h.isCancelled token = true)
    (s : Stimulus) : (h.meet s).isCancelled token = true := by
  cases s with
  | advance ms => exact hcancelled
  | cancel other =>
    have hmem := List.contains_iff_mem.mp hcancelled
    exact List.contains_iff_mem.mpr (List.mem_cons_of_mem other hmem)
  | feed source e =>
    rcases h.meet_feed_cases source e with hsame | ⟨queue, held, turns, -, hfed⟩
    · rw [hsame]
      exact hcancelled
    · rw [hfed]
      exact hcancelled

/-! ### What acts deliver -/

theorem alike_meet (h : Hub) (s : Stimulus) : Alike (h.meet s) h := by
  cases s with
  | advance ms => exact ⟨rfl, rfl, rfl, fun _ _ => rfl⟩
  | cancel token => exact ⟨rfl, rfl, rfl, fun _ _ => rfl⟩
  | feed source e =>
    rcases h.meet_feed_cases source e with hsame | ⟨queue, held, turns, -, hfed⟩
    · rw [hsame]
      exact .refl h
    · rw [hfed]
      exact ⟨rfl, rfl, rfl, fun _ _ => rfl⟩

theorem alike_act (h : Hub) (a : Act) : Alike (h.act a) (h.deliverAll (h.delivers a)) := by
  cases a with
  | outside s => exact alike_meet h s
  | step id => exact alike_stepOnce h id
  | start l => exact ⟨rfl, rfl, rfl, fun _ _ => rfl⟩
  | release source => exact ⟨rfl, rfl, rfl, fun _ _ => rfl⟩

/-- The stores, what they published and the counters of their events come from the ledger. -/
theorem alike_play (h : Hub) (acts : List Act) :
    Alike (h.play acts) (h.deliverAll (h.ledger acts)) := by
  induction acts using List.reverseRecOn with
  | nil => exact .refl h
  | append_singleton acts a ih =>
    rw [play_concat, ledger_concat, deliverAll_append]
    exact (alike_act _ a).trans (ih.deliverAll _)

/-! ## Settling is acting -/

theorem settleIn_eq_play (order : List Nat) (fuel : Nat) (h : Hub) :
    ∃ ids : List Nat, settleIn order fuel h = h.play (ids.map .step) := by
  induction fuel generalizing h with
  | zero => exact ⟨[], rfl⟩
  | succ fuel ih =>
    rw [settleIn]
    cases hfirst : h.stepFirst order with
    | none => exact ⟨[], rfl⟩
    | some h' =>
      obtain ⟨id, -, hstep⟩ := List.exists_of_findSome?_eq_some hfirst
      obtain ⟨ids, hids⟩ := ih h'
      have hact : h.act (.step id) = h' := by simp [act, stepOnce, hstep]
      refine ⟨id :: ids, hids.trans ?_⟩
      rw [List.map_cons, play, play, List.foldl_cons, hact]

/-- A hub settles by steps of its loops, after which none of them can make another one. -/
theorem settle_eq_play {h : Hub} (hpaced : h.Paced) :
    ∃ ids : List Nat, h.settle = (h.play (ids.map .step)).resolveWaits ∧
      ∀ id, h.settle.stepLoop id = none := by
  obtain ⟨ids, hids⟩ := settleIn_eq_play h.runOrder h.work h
  exact ⟨ids, congrArg resolveWaits hids, settle_rests hpaced⟩

end WatchCache.Hub
