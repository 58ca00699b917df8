import WatchCache.Proofs.Hub.Ledger

set_option autoImplicit false

/-!
# A part of a hub

The first stores of a hub, with the topics that they publish on, the sources that feed them and
the loops between, are a hub of their own if no other loop feeds one of these stores and no other
store publishes on one of these topics.  Whatever the whole hub does, its part then does the same
or nothing; so what becomes of the part does not depend on the rest.
-/

namespace WatchCache

namespace Hub

/-- How many stores, topics, sources and loops make up a part of a hub, the first of each. -/
structure Share where
  stores : Nat
  topics : Nat
  sources : Nat
  loops : Nat

/-- A part of a hub.  It keeps no measurements, and of the subscribers only their topics. -/
def part (n : Share) (h : Hub) : Hub where
  now := h.now
  cancelled := h.cancelled
  stores := h.stores.take n.stores
  topics := h.topics.take n.topics
  sources := h.sources.take n.sources
  loops := h.loops.take n.loops
  subscribers := h.subscribers.map (Option.map fun s => { s with next := 0 })

/-- The stores of a part, and no others, publish on its topics. -/
def Publishes (n : Share) (h : Hub) : Prop :=
  ∀ id cell, h.stores[id]? = some cell → (id < n.stores ↔ cell.topic < n.topics)

/-- The stores, topics, sources and loops of a part have to do with each other only. -/
structure Splits (n : Share) (h : Hub) : Prop where
  publishes : h.Publishes n
  feeds : ∀ id l, h.loops[id]? = some l → (id < n.loops ↔ l.store < n.stores)
  reads : ∀ id l, h.loops[id]? = some l → (id < n.loops ↔ l.source < n.sources)

theorem publishes_iff {n : Share} {h : Hub} :
    h.Publishes n ↔
      ∀ id topic, h.wiring.1[id]? = some topic → (id < n.stores ↔ topic < n.topics) := by
  simp only [Publishes, wiring, List.getElem?_map, Option.map_eq_some_iff]
  constructor
  · rintro hpublishes id topic ⟨cell, hcell, rfl⟩
    exact hpublishes id cell hcell
  · intro hpublishes id cell hcell
    exact hpublishes id cell.topic ⟨cell, hcell, rfl⟩

theorem wiring_stepOnce (h : Hub) (id : Nat) : (h.stepOnce id).wiring = h.wiring := by
  unfold stepOnce
  cases hstep : h.stepLoop id with
  | none => rfl
  | some h' => exact wiring_stepLoop hstep

theorem wiring_meet (h : Hub) (s : Stimulus) : (h.meet s).wiring = h.wiring := by
  cases s with
  | advance ms => rfl
  | cancel token => rfl
  | feed source e =>
    rw [meet]
    split
    · next hfeed => exact wiring_feed hfeed
    · rfl

section

variable (n : Share) (h : Hub)

@[simp] theorem part_part : (h.part n).part n = h.part n := by
  simp [part, Function.comp_def, List.take_take]

@[simp] theorem now_part : (h.part n).now = h.now := rfl

@[simp] theorem part_withMetrics (metrics : Metrics) :
    ({ h with metrics := metrics } : Hub).part n = h.part n := rfl

@[simp] theorem part_count (s : Series) : (h.count s).part n = h.part n := rfl

/-! ## Changes of one thing -/

@[simp] theorem part_setStore (id : Nat) (s : Store) :
    (h.setStore id s).part n = (h.part n).setStore id s := by
  simp [part, setStore, List.take_modify]

@[simp] theorem part_publish (topic : Nat) (changes : List Change) :
    (h.publish topic changes).part n = (h.part n).publish topic changes := by
  simp [part, publish, List.take_modify]

@[simp] theorem part_modifySource (source : Nat) (f : Source → Source) :
    (h.modifySource source f).part n = (h.part n).modifySource source f := by
  simp [part, modifySource, List.take_modify]

@[simp] theorem part_setPhase (id : Nat) (p : Phase) :
    (h.setPhase id p).part n = (h.part n).setPhase id p := by
  simp [part, setPhase, List.take_modify]

theorem hasSubscriber_part (topic : Nat) :
    (h.part n).hasSubscriber topic = h.hasSubscriber topic := by
  rw [hasSubscriber, hasSubscriber, part, List.any_map]
  congr 1
  funext s
  cases s <;> rfl

end

section

variable {n : Share} {h : Hub}

/-! ## What is not in the part -/

theorem setStore_part_of_le {id : Nat} (hid : n.stores ≤ id) (s : Store) :
    (h.part n).setStore id s = h.part n := by
  have hlength := Nat.le_trans (List.length_take_le n.stores h.stores) hid
  simp [part, setStore, List.modify_eq_self hlength]

theorem publish_part_of_le {topic : Nat} (htopic : n.topics ≤ topic) (changes : List Change) :
    (h.part n).publish topic changes = h.part n := by
  have hlength := Nat.le_trans (List.length_take_le n.topics h.topics) htopic
  simp [part, publish, List.modify_eq_self hlength]

theorem modifySource_part_of_le {source : Nat} (hsource : n.sources ≤ source)
    (f : Source → Source) : (h.part n).modifySource source f = h.part n := by
  have hlength := Nat.le_trans (List.length_take_le n.sources h.sources) hsource
  simp [part, modifySource, List.modify_eq_self hlength]

theorem setPhase_part_of_le {id : Nat} (hid : n.loops ≤ id) (p : Phase) :
    (h.part n).setPhase id p = h.part n := by
  have hlength := Nat.le_trans (List.length_take_le n.loops h.loops) hid
  simp [part, setPhase, List.modify_eq_self hlength]

/-- A source of the whole hub changes in its part, if it is there. -/
theorem part_setSource (source : Nat) (s : Source) :
    ({ h with sources := h.sources.set source s } : Hub).part n =
      { h.part n with sources := (h.part n).sources.set source s } := by
  simp [part, List.take_set]

theorem setSource_part_of_le {source : Nat} (hsource : n.sources ≤ source) (s : Source) :
    ({ h.part n with sources := (h.part n).sources.set source s } : Hub) = h.part n := by
  have hlength := Nat.le_trans (List.length_take_le n.sources h.sources) hsource
  simp [part, List.set_eq_of_length_le hlength]

/-! ## Stores -/

theorem getElem?_stores_part {id : Nat} (hid : id < n.stores) :
    (h.part n).stores[id]? = h.stores[id]? := List.getElem?_take_of_lt hid

theorem part_tryStore {id : Nat} (hid : id < n.stores) (f : Store → Answer Store) :
    (h.tryStore id f).2.part n = ((h.part n).tryStore id f).2 := by
  have hsame : (h.part n).store? id = h.store? id :=
    congrArg (Option.map StoreCell.store) (getElem?_stores_part hid)
  unfold tryStore
  rw [hsame]
  split
  · rfl
  · split
    · exact part_setStore n h id _
    · rfl

theorem apply_part_of_le {id : Nat} (hid : n.stores ≤ id) (e : Event) :
    (h.part n).apply id e = h.part n := by
  have hnone : (h.part n).stores[id]? = none := List.getElem?_take_eq_none hid
  unfold apply
  rw [hnone]

/-- An event for a store of the part publishes there; one for any other store does not. -/
theorem part_apply (hpublishes : h.Publishes n) (id : Nat) (e : Event) :
    (h.apply id e).part n = ((h.part n).apply id e).part n := by
  by_cases hid : id < n.stores
  · have hsame := getElem?_stores_part (h := h) hid
    unfold apply
    rw [hsame]
    cases h.stores[id]? with
    | none => exact (part_part n h).symm
    | some cell =>
      simp only [hasSubscriber_part]
      split <;> simp
  · have hle := Nat.le_of_not_lt hid
    rw [apply_part_of_le hle, part_part]
    unfold apply
    cases hcell : h.stores[id]? with
    | none => rfl
    | some cell =>
      have hwhich := hpublishes id cell hcell
      have htopic : n.topics ≤ cell.topic := by omega
      have hset := setStore_part_of_le (h := h) hle (cell.store.apply e)
      dsimp only
      split
      · simp [hset, publish_part_of_le htopic]
      · simp [hset]

/-! ## Steps -/

section

variable {id : Nat} {l : Loop}

theorem part_openStream (hsource : (h.part n).sources[l.source]? = h.sources[l.source]?)
    (id : Nat) (deadline : Option Nat) :
    (h.openStream id l deadline).part n = ((h.part n).openStream id l deadline).part n := by
  simp only [openStream, part_setPhase, part_modifySource, part_part, hsource]

theorem part_takeItem (hpublishes : h.Publishes n) (id : Nat) (l : Loop) (item : Item)
    (items : List Item) (deadline : Option Nat) :
    (h.takeItem id l item items deadline).part n =
      ((h.part n).takeItem id l item items deadline).part n := by
  cases item with
  | event e =>
    have happly := part_apply (h := h.setPhase id (.streaming items deadline)) hpublishes l.store e
    rw [part_setPhase] at happly
    exact happly
  | failure error => simp [takeItem]
  | ended => simp [takeItem]

theorem part_takeEvent (hpublishes : h.Publishes n) (l : Loop) (e : Event) (source : Source) :
    (h.takeEvent l e source).part n = ((h.part n).takeEvent l e source).part n := by
  have happly := part_apply (h := { h with sources := h.sources.set l.source source })
    hpublishes l.store e
  rw [part_setSource] at happly
  exact happly

theorem part_reopen (id : Nat) (l : Loop) :
    (h.reopen id l).part n = ((h.part n).reopen id l).part n := by
  simp [reopen]

theorem part_stop (id : Nat) (l : Loop) :
    (h.stop id l).part n = ((h.part n).stop id l).part n := by
  simp [stop]

theorem part_breakDown (id : Nat) (l : Loop) :
    (h.breakDown id l).part n = ((h.part n).breakDown id l).part n := by
  simp [breakDown_eq]

/-- A loop of the part makes the same steps there. -/
theorem part_stepLoop (hsplits : h.Splits n) (hl : h.loops[id]? = some l) (hid : id < n.loops) :
    (h.stepLoop id).map (part n) = ((h.part n).stepLoop id).map (part n) := by
  have hl' : (h.part n).loops[id]? = some l := (List.getElem?_take_of_lt hid).trans hl
  have hsource : (h.part n).sources[l.source]? = h.sources[l.source]? :=
    List.getElem?_take_of_lt ((hsplits.reads id l hl).mp hid)
  have hlive : (h.part n).isCancelled l.token = h.isCancelled l.token := rfl
  unfold stepLoop
  simp only [hl, hl', hlive]
  cases hphase : l.phase with
  | stopped => rfl
  | opening =>
    dsimp only
    rw [now_part]
    cases l.deadline? h.now with
    | some deadline => exact congrArg some (part_openStream hsource id deadline)
    | none => exact congrArg some (part_breakDown id l)
  | backingOff due =>
    dsimp only
    split
    · exact congrArg some (part_stop id l)
    · rw [now_part]
      split
      · simp
      · rfl
  | streaming items deadline =>
    dsimp only
    split
    · exact congrArg some (part_stop id l)
    · unfold stepStream
      cases items with
      | cons item rest =>
        exact congrArg some (part_takeItem hsplits.publishes id l item rest deadline)
      | nil =>
        dsimp only
        rw [hsource, now_part]
        split
        · exact congrArg some (part_takeEvent hsplits.publishes l _ _)
        · split
          · exact congrArg some (part_reopen id l)
          · rfl

/-- Any other loop does nothing to the part. -/
theorem part_step_of_le (hsplits : h.Splits n) {h' : Hub} (hl : h.loops[id]? = some l)
    (hid : n.loops ≤ id) (hstep : Step h id l h') : h'.part n = h.part n := by
  have hfeeds := hsplits.feeds id l hl
  have hreads := hsplits.reads id l hl
  have hstore : n.stores ≤ l.store := by omega
  have hsource : n.sources ≤ l.source := by omega
  cases hstep with
  | start _ _ =>
    simp [openStream, modifySource_part_of_le hsource, setPhase_part_of_le hid]
  | breakDown _ _ =>
    simp [breakDown_eq, modifySource_part_of_le hsource, setPhase_part_of_le hid]
  | stop _ _ _ => simp [stop, modifySource_part_of_le hsource, setPhase_part_of_le hid]
  | @item item items deadline _ _ =>
    rw [part_takeItem hsplits.publishes]
    cases item with
    | event e => simp [takeItem, setPhase_part_of_le hid, apply_part_of_le hstore]
    | failure error => simp [takeItem, setPhase_part_of_le hid]
    | ended => simp [takeItem, setPhase_part_of_le hid]
  | event _ _ _ =>
    rw [part_takeEvent hsplits.publishes, takeEvent, setSource_part_of_le hsource,
      apply_part_of_le hstore, part_part]
  | resync _ _ _ _ =>
    simp [reopen, modifySource_part_of_le hsource, setPhase_part_of_le hid]
  | wake _ _ _ => simp [setPhase_part_of_le hid]

/-- The part makes the step as well, if the loop is one of its own. -/
theorem part_stepOnce (hsplits : h.Splits n) (id : Nat) :
    (h.stepOnce id).part n = ((h.part n).stepOnce id).part n := by
  by_cases hid : id < n.loops
  · cases hl : h.loops[id]? with
    | none =>
      have hnone : (h.part n).loops[id]? = none := (List.getElem?_take_of_lt hid).trans hl
      simp [stepOnce, stepLoop, hl, hnone]
    | some l =>
      have hstep := part_stepLoop hsplits hl hid
      unfold stepOnce
      cases hwhole : h.stepLoop id with
      | none =>
        rw [hwhole] at hstep
        rw [Option.map_eq_none_iff.mp hstep.symm]
        simp
      | some h' =>
        rw [hwhole] at hstep
        obtain ⟨r', hr', hsame⟩ := Option.map_eq_some_iff.mp hstep.symm
        rw [hr']
        exact hsame.symm
  · have hnone : (h.part n).loops[id]? = none :=
      List.getElem?_take_eq_none (Nat.le_of_not_lt hid)
    have hrest : (h.part n).stepOnce id = h.part n := by simp [stepOnce, stepLoop, hnone]
    rw [hrest, part_part]
    rcases h.stepOnce_cases id with ⟨-, hsame⟩ | ⟨l, hl, hstep⟩
    · rw [hsame]
    · exact part_step_of_le hsplits hl (Nat.le_of_not_lt hid) hstep

end

/-! ## Stimuli -/

theorem isRead_part (hsplits : h.Splits n) {source : Nat} (hsource : source < n.sources) :
    (h.part n).isRead source = h.isRead source := by
  rw [isRead, isRead, Bool.eq_iff_iff, List.any_eq_true, List.any_eq_true]
  constructor
  · rintro ⟨l, hl, hreads⟩
    exact ⟨l, List.mem_of_mem_take hl, hreads⟩
  · rintro ⟨l, hl, hreads⟩
    obtain ⟨id, hid⟩ := List.mem_iff_getElem?.mp hl
    have hwhich := hsplits.reads id l hid
    have hsame : l.source = source := by
      rw [Bool.and_eq_true] at hreads
      exact of_decide_eq_true hreads.1
    have hlow : id < n.loops := hwhich.mpr (hsame ▸ hsource)
    exact ⟨l, List.mem_of_getElem? ((List.getElem?_take_of_lt hlow).trans hid), hreads⟩

theorem feed_part (hsplits : h.Splits n) {source : Nat} (hsource : source < n.sources) (e : Event) :
    (h.part n).feed source e = (h.feed source e).map (part n) := by
  have hsame : (h.part n).sources[source]? = h.sources[source]? :=
    List.getElem?_take_of_lt hsource
  unfold feed
  rw [hsame, isRead_part hsplits hsource]
  split
  · split
    · exact congrArg Except.ok (part_setSource source _).symm
    · rfl
  · rfl

/-- The part is met by the same stimulus; an event for any other source does nothing to it. -/
theorem part_meet (hsplits : h.Splits n) (s : Stimulus) :
    (h.meet s).part n = ((h.part n).meet s).part n := by
  cases s with
  | advance ms => exact (part_part n (h.advance ms)).symm
  | cancel token => exact (part_part n (h.cancel token)).symm
  | feed source e =>
    unfold meet
    by_cases hsource : source < n.sources
    · simp only [feed_part hsplits hsource]
      cases h.feed source e <;> simp [Except.map]
    · have hnone : (h.part n).sources[source]? = none :=
        List.getElem?_take_eq_none (Nat.le_of_not_lt hsource)
      have hrefused : (h.part n).feed source e = .error (.remote "channel source closed") := by
        simp [feed, hnone]
      simp only [hrefused, part_part]
      split
      · next hfeed =>
        obtain ⟨queue, held, turns, -, rfl⟩ := feed_ok hfeed
        rw [part_setSource, setSource_part_of_le (Nat.le_of_not_lt hsource)]
      · rfl

/-! ## Subscribers -/

theorem part_subscribe (topic : Nat) :
    (h.subscribe topic).2.part n = ((h.part n).subscribe topic).2.part n := by
  simp [subscribe, part, List.take_take, Function.comp_def]

theorem part_unsubscribe (sub : Nat) :
    (h.unsubscribe sub).part n = (h.part n).unsubscribe sub := by
  simp [unsubscribe, part, List.map_set]

/-- A subscriber that receives stays subscribed to its topic. -/
theorem part_receive (sub : Nat) : (h.receive sub).2.part n = h.part n := by
  unfold receive
  split
  · next s hs =>
    split
    · next t _ =>
      have hsame : (h.subscribers.set sub (some { s with next := t.log.length })).map
          (Option.map fun s => { s with next := 0 }) =
            h.subscribers.map (Option.map fun s => { s with next := 0 }) := by
        have hlt := (List.getElem?_eq_some_iff.mp hs).1
        refine List.ext_getElem? fun i => ?_
        rw [List.getElem?_map, List.getElem?_map]
        by_cases heq : sub = i
        · subst heq
          rw [List.getElem?_set_self hlt, hs]
          rfl
        · rw [List.getElem?_set_ne heq]
      simp [part, hsame]
    · rfl
  · rfl

end

end Hub

end WatchCache
