import WatchCache.Proofs.Hub.Ledger
import WatchCache.Proofs.Store.Bare

set_option autoImplicit false

/-!
# Hubs without types

Loops bring events to stores without looking at the types of the objects in them.  So a hub whose
objects have lost their types makes the same steps as before, and each of them leads to the hub
that the step leads to otherwise, without the types.
-/

namespace WatchCache

/-! ## Sources, loops and topics -/

/-- The item without the types of its objects. -/
def Item.bare : Item → Item
  | .event e => .event e.bare
  | .failure error => .failure error
  | .ended => .ended

/-- The source with all that it still has to yield without types. -/
def Source.bare : Source → Source
  | .scripted sessions watches => .scripted (sessions.map (List.map Item.bare)) watches
  | .channel queue held turns => .channel (queue.map Event.bare) held turns

namespace Source

theorem subscribe_bare (s : Source) :
    s.bare.subscribe = (s.subscribe.1.map Item.bare, s.subscribe.2.bare) := by
  cases s with
  | scripted sessions watches => cases sessions <;> rfl
  | channel queue held turns => rfl

theorem waitTurn_bare (loop : Nat) (s : Source) :
    s.bare.waitTurn loop = (s.waitTurn loop).bare := by
  cases s <;> rfl

theorem leave_bare (loop : Nat) (s : Source) : s.bare.leave loop = (s.leave loop).bare := by
  cases s <;> rfl

theorem receive?_bare (loop : Nat) (s : Source) :
    s.bare.receive? loop = (s.receive? loop).map fun (e, s) => (e.bare, s.bare) := by
  cases s with
  | scripted sessions watches => rfl
  | channel queue held turns =>
    cases queue with
    | nil => rfl
    | cons e queue =>
      simp only [bare, List.map_cons, receive?]
      cases join loop turns with
      | nil => rfl
      | cons first others =>
        dsimp only
        split <;> rfl

end Source

/-- The phase with all items that are still to be taken without types. -/
def Phase.bare : Phase → Phase
  | .opening => .opening
  | .streaming items deadline => .streaming (items.map Item.bare) deadline
  | .backingOff until_ => .backingOff until_
  | .stopped => .stopped

/-- The loop with all items that it still has to take without types. -/
def Loop.bare (l : Loop) : Loop := { l with phase := l.phase.bare }

@[simp] theorem Loop.isStopped_bare (l : Loop) : l.bare.isStopped = l.isStopped := by
  obtain ⟨store, source, resync, backoff, token, phase⟩ := l
  cases phase <;> simp [Loop.isStopped, Loop.bare, Phase.bare]

/-- The topic with its changes without types. -/
def Topic.bare (t : Topic) : Topic := { t with log := t.log.map Change.bare }

/-- The store without types, with its topic. -/
noncomputable def StoreCell.bare (c : StoreCell) : StoreCell := { c with store := c.store.bare }

/-- What comes from outside without the types of its objects. -/
def Hub.Stimulus.bare : Hub.Stimulus → Hub.Stimulus
  | .advance ms => .advance ms
  | .cancel token => .cancel token
  | .feed source e => .feed source e.bare

/-- Changing an element and then all of them. -/
theorem map_modify_of_comm {α β : Type} {f : α → α} {f' : β → β} {g : α → β}
    (hcomm : ∀ a, g (f a) = f' (g a)) (l : List α) (i : Nat) :
    (l.map g).modify i f' = (l.modify i f).map g := by
  refine List.ext_getElem? fun j => ?_
  simp only [List.getElem?_modify, List.getElem?_map, Option.map_eq_map, Option.map_map]
  congr 1
  funext a
  simp only [Function.comp_apply]
  split
  · exact (hcomm a).symm
  · rfl

namespace Hub

/-- The hub with all objects in it without types. -/
noncomputable def bare (h : Hub) : Hub :=
  { h with
    stores := h.stores.map StoreCell.bare
    topics := h.topics.map Topic.bare
    sources := h.sources.map Source.bare
    loops := h.loops.map Loop.bare }

/-! ## Parts -/

@[simp] theorem store?_bare (h : Hub) (id : Nat) :
    h.bare.store? id = (h.store? id).map Store.bare := by
  simp only [store?, bare, List.getElem?_map, Option.map_map]
  rfl

theorem addTopic_bare (h : Hub) (buffer : Nat) :
    h.bare.addTopic buffer = ((h.addTopic buffer).1, (h.addTopic buffer).2.bare) := by
  simp [addTopic, bare, Topic.ofBuffer, Topic.bare]

theorem addStore_bare (h : Hub) (kind : Kind) (topic : Nat) :
    h.bare.addStore kind topic =
      ((h.addStore kind topic).1, (h.addStore kind topic).2.bare) := by
  simp [addStore, bare, StoreCell.bare, Store.bare_new]

theorem addSource_bare (h : Hub) (s : Source) :
    h.bare.addSource s.bare = ((h.addSource s).1, (h.addSource s).2.bare) := by
  simp [addSource, bare]

theorem setStore_bare (h : Hub) (id : Nat) (s : Store) :
    h.bare.setStore id s.bare = (h.setStore id s).bare := by
  simp only [setStore, bare]
  rw [map_modify_of_comm]
  exact fun _ => rfl

theorem modifySource_bare (h : Hub) (id : Nat) {f : Source → Source}
    (hf : ∀ s, (f s).bare = f s.bare) : h.bare.modifySource id f = (h.modifySource id f).bare := by
  simp only [modifySource, bare]
  rw [map_modify_of_comm hf]

theorem setPhase_bare (h : Hub) (id : Nat) (p : Phase) :
    h.bare.setPhase id p.bare = (h.setPhase id p).bare := by
  simp only [setPhase, bare]
  rw [map_modify_of_comm]
  exact fun _ => rfl

theorem publish_bare (h : Hub) (topic : Nat) (changes : List Change) :
    h.bare.publish topic (changes.map Change.bare) = (h.publish topic changes).bare := by
  simp only [publish, bare]
  rw [map_modify_of_comm]
  exact fun t => by simp [Topic.bare]

theorem subscribe_bare (h : Hub) (topic : Nat) :
    (h.bare.subscribe topic).2 = (h.subscribe topic).2.bare := by
  have htopic : h.bare.topics[topic]? = (h.topics[topic]?).map Topic.bare := List.getElem?_map
  simp only [subscribe, htopic, Option.map_map]
  have hlength : (fun t : Topic => t.log.length) ∘ Topic.bare = fun t => t.log.length :=
    funext fun t => List.length_map _
  rw [hlength]
  rfl

theorem receive_bare (h : Hub) (sub : Nat) : (h.bare.receive sub).2 = (h.receive sub).2.bare := by
  have hsub : h.bare.subscribers = h.subscribers := rfl
  simp only [receive, hsub]
  split
  · next s _ =>
    have htopic : h.bare.topics[s.topic]? = (h.topics[s.topic]?).map Topic.bare :=
      List.getElem?_map
    rw [htopic]
    cases h.topics[s.topic]? with
    | none => rfl
    | some t =>
      have hlength : t.bare.log.length = t.log.length := List.length_map _
      simp only [Option.map_some, hlength]
      rfl
  · rfl

/-! ## Stores -/

/-- An event does to a store without types what it does otherwise. -/
theorem apply_bare (h : Hub) (id : Nat) (e : Event) :
    h.bare.apply id e.bare = (h.apply id e).bare := by
  have hcell : h.bare.stores[id]? = (h.stores[id]?).map StoreCell.bare := List.getElem?_map
  simp only [apply, hcell]
  cases h.stores[id]? with
  | none => rfl
  | some cell =>
    have hstore : cell.bare.store.apply e.bare = (cell.store.apply e).bare :=
      (cell.store.bare_apply e).symm
    have hchanges : cell.bare.store.changes e.bare = (cell.store.changes e).map Change.bare :=
      (cell.store.bare_changes e).symm
    have hsub : h.bare.hasSubscriber cell.bare.topic = h.hasSubscriber cell.topic := rfl
    simp only [Option.map_some, hstore, hchanges, hsub, Event.word_bare, Store.size_bare,
      setStore_bare]
    let kind := cell.store.kind.key
    let applied : Hub :=
      { h.setStore id (cell.store.apply e) with
        metrics := (h.metrics.count (.events kind e.word)).gauge (.objects kind)
          (cell.store.apply e).size }
    split
    · exact publish_bare applied cell.topic (cell.store.changes e)
    · rfl

/-- No index that a call asks by looks at types, in any store. -/
def Blind (h : Hub) (o : ListOptions) : Prop := ∀ id s, h.store? id = some s → s.Blind o

/-- A list that does not look at types returns the same objects, and every list counts the
same. -/
theorem list_bare (h : Hub) (id : Nat) (o : ListOptions) :
    (h.bare.list id o).2 = (h.list id o).2.bare ∧
      (∀ e, (h.bare.list id o).1 = .error e ↔ (h.list id o).1 = .error e) ∧
      (h.Blind o → (h.bare.list id o).1 = (h.list id o).1) := by
  simp only [list, store?_bare]
  cases hs : h.store? id with
  | none => exact ⟨rfl, fun _ => Iff.rfl, fun _ => rfl⟩
  | some s =>
    have herror := s.list_bare_eq_error_iff o
    simp only [Option.map_some]
    cases hlist : s.list o with
    | error e =>
      rw [(herror e).mpr hlist]
      exact ⟨rfl, fun _ => Iff.rfl, fun _ => rfl⟩
    | ok objects =>
      cases hlist' : s.bare.list o with
      | error e => cases hlist.symm.trans ((herror e).mp hlist')
      | ok objects' =>
        refine ⟨rfl, fun e => by simp, fun hblind => ?_⟩
        exact hlist'.symm.trans ((Store.list_bare (hblind id s hs)).trans hlist)

/-- A change that does not look at types is made or refused in either case. -/
theorem tryStore_bare (h : Hub) (id : Nat) (f f' : Store → Answer Store)
    (hf : ∀ s, f' s.bare = (f s).map Store.bare) :
    h.bare.tryStore id f' = ((h.tryStore id f).1, (h.tryStore id f).2.bare) := by
  simp only [tryStore, store?_bare]
  cases h.store? id with
  | none => rfl
  | some s =>
    simp only [Option.map_some, hf]
    cases f s with
    | error e => rfl
    | ok t => simp only [Except.map, setStore_bare]

/-- An index is added to stores that are the same without types, or refused by both. -/
theorem tryStore_congr {h h' : Hub} (hh : h.bare = h'.bare) (id : Nat) (name : String)
    (extract : Extractor) :
    (h.tryStore id (·.addIndex name extract)).1 = (h'.tryStore id (·.addIndex name extract)).1 ∧
      (h.tryStore id (·.addIndex name extract)).2.bare =
        (h'.tryStore id (·.addIndex name extract)).2.bare := by
  have htry (h : Hub) := h.tryStore_bare id (·.addIndex name extract)
    (·.addIndex name (Extractor.bare extract)) fun s => (s.bare_addIndex name extract).symm
  have hboth := (htry h).symm
  rw [hh, htry h'] at hboth
  exact Prod.mk.inj hboth

@[simp] theorem isSynced_bare (h : Hub) (id : Nat) : h.bare.isSynced id = h.isSynced id := by
  rw [isSynced, isSynced, store?_bare]
  cases h.store? id <;> rfl

@[simp] theorem synced?_bare (h : Hub) (token : Token) (stores : List Nat) :
    h.bare.synced? token stores = h.synced? token stores := by
  induction stores with
  | nil => rfl
  | cons id rest ih => rw [synced?, synced?, ih, isSynced_bare]; rfl

/-! ## Stimuli -/

theorem isRead_bare (h : Hub) (source : Nat) : h.bare.isRead source = h.isRead source := by
  simp only [isRead, bare, List.any_map, Function.comp_def, Loop.isStopped_bare]
  rfl

theorem feed_bare (h : Hub) (source : Nat) (e : Event) :
    h.bare.feed source e.bare = (h.feed source e).map bare := by
  have hsource : h.bare.sources[source]? = (h.sources[source]?).map Source.bare :=
    List.getElem?_map
  simp only [feed, hsource, isRead_bare]
  cases h.sources[source]? with
  | none => rfl
  | some s =>
    cases s with
    | scripted sessions watches => rfl
    | channel queue held turns =>
      simp only [Option.map_some, Source.bare]
      split
      · simp [Except.map, bare, List.map_set, Source.bare]
      · rfl

theorem meet_bare (h : Hub) (s : Stimulus) : h.bare.meet s.bare = (h.meet s).bare := by
  cases s with
  | advance ms => rfl
  | cancel token => rfl
  | feed source e =>
    simp only [Stimulus.bare, meet, feed_bare]
    cases h.feed source e <;> rfl

/-! ## Steps -/

theorem takeItem_bare (h : Hub) (id : Nat) (l : Loop) (item : Item) (items : List Item)
    (deadline : Option Nat) :
    h.bare.takeItem id l.bare item.bare (items.map Item.bare) deadline =
      (h.takeItem id l item items deadline).bare := by
  have hphase : Phase.streaming (items.map Item.bare) deadline =
      (Phase.streaming items deadline).bare := rfl
  cases item with
  | event e =>
    simp only [Item.bare, takeItem, hphase, setPhase_bare]
    exact apply_bare _ l.store e
  | failure error => simp only [Item.bare, takeItem, hphase, setPhase_bare]
  | ended =>
    have hkind : (h.bare.store? l.store).map (fun s => s.kind.key) =
        (h.store? l.store).map fun s => s.kind.key := by
      rw [store?_bare, Option.map_map]
      rfl
    have hback (until_ : Nat) : Phase.backingOff until_ = (Phase.backingOff until_).bare := rfl
    simp only [Item.bare, takeItem]
    rw [show l.bare.store = l.store from rfl, hkind, hback, setPhase_bare]
    rfl

theorem openStream_bare (h : Hub) (id : Nat) (l : Loop) (deadline : Option Nat) :
    h.bare.openStream id l.bare deadline = (h.openStream id l deadline).bare := by
  have hitems : ((h.bare.sources[l.source]?).map fun s => s.subscribe.1).getD [] =
      (((h.sources[l.source]?).map fun s => s.subscribe.1).getD []).map Item.bare := by
    have hget : h.bare.sources[l.source]? = (h.sources[l.source]?).map Source.bare :=
      List.getElem?_map
    rw [hget, Option.map_map]
    cases h.sources[l.source]? with
    | none => rfl
    | some s => simp [Source.subscribe_bare]
  have hjoin := h.modifySource_bare l.source (f := fun s => (s.subscribe.2).waitTurn id)
    fun s => by rw [Source.subscribe_bare, Source.waitTurn_bare]
  unfold openStream
  rw [show l.bare.source = l.source from rfl, hitems, hjoin]
  exact setPhase_bare _ id (.streaming _ _)

theorem leave_bare (h : Hub) (id : Nat) (l : Loop) (p : Phase) :
    (h.bare.modifySource l.source (·.leave id)).setPhase id p.bare =
      ((h.modifySource l.source (·.leave id)).setPhase id p).bare := by
  rw [modifySource_bare h l.source fun s => (s.leave_bare id).symm, setPhase_bare]

theorem reopen_bare (h : Hub) (id : Nat) (l : Loop) :
    h.bare.reopen id l.bare = (h.reopen id l).bare := by
  have hkind : (h.bare.store? l.store).map (fun s => s.kind.key) =
      (h.store? l.store).map fun s => s.kind.key := by
    rw [store?_bare, Option.map_map]
    rfl
  simp only [reopen]
  rw [show l.bare.store = l.store from rfl, hkind]
  exact congrArg (fun left : Hub => left.count _) (h.leave_bare id l .opening)

theorem stop_bare (h : Hub) (id : Nat) (l : Loop) : h.bare.stop id l.bare = (h.stop id l).bare :=
  h.leave_bare id l .stopped

theorem breakDown_bare (h : Hub) (id : Nat) (l : Loop) :
    h.bare.breakDown id l.bare = (h.breakDown id l).bare := by
  have hsubscribe := h.modifySource_bare l.source (f := fun s => s.subscribe.2)
    fun s => by rw [Source.subscribe_bare]
  rw [breakDown, show l.bare.source = l.source from rfl, hsubscribe, stop_bare, breakDown]

theorem stepStream_bare (h : Hub) (id : Nat) (l : Loop) (items : List Item)
    (deadline : Option Nat) :
    h.bare.stepStream id l.bare (items.map Item.bare) deadline =
      (h.stepStream id l items deadline).map bare := by
  have hdue : (if deadline.any (· ≤ h.bare.now) then some (h.bare.reopen id l.bare) else none) =
      (if deadline.any (· ≤ h.now) then some (h.reopen id l) else none).map bare := by
    rw [reopen_bare]
    show (if deadline.any (· ≤ h.now) then _ else _) = _
    split <;> rfl
  cases items with
  | cons item items =>
    simp only [List.map_cons, stepStream, Option.map_some, takeItem_bare]
  | nil =>
    have hsource : (h.bare.sources[l.bare.source]?).bind (·.receive? id) =
        ((h.sources[l.source]?).bind (·.receive? id)).map fun (e, s) => (e.bare, s.bare) := by
      have hget : h.bare.sources[l.bare.source]? = (h.sources[l.source]?).map Source.bare :=
        List.getElem?_map
      rw [hget]
      cases h.sources[l.source]? with
      | none => rfl
      | some s => exact s.receive?_bare id
    simp only [List.map_nil, stepStream]
    rw [hsource, hdue]
    cases (h.sources[l.source]?).bind (·.receive? id) with
    | none => rfl
    | some received =>
      obtain ⟨e, source⟩ := received
      have hset : ({ h.bare with sources := h.bare.sources.set l.bare.source source.bare } : Hub) =
          ({ h with sources := h.sources.set l.source source } : Hub).bare := by
        simp only [bare, List.map_set, Loop.bare]
      simp only [Option.map_some]
      rw [hset]
      exact congrArg some (apply_bare _ l.store e)

/-- A loop makes the same step. -/
theorem stepLoop_bare (h : Hub) (id : Nat) : h.bare.stepLoop id = (h.stepLoop id).map bare := by
  have hloop : h.bare.loops[id]? = (h.loops[id]?).map Loop.bare := List.getElem?_map
  simp only [stepLoop, hloop]
  cases h.loops[id]? with
  | none => rfl
  | some l =>
    have hcancelled : h.bare.isCancelled l.bare.token = h.isCancelled l.token := rfl
    simp only [Option.map_some]
    have hnow : h.bare.now = h.now := rfl
    have hdeadline : l.bare.deadline? h.now = l.deadline? h.now := rfl
    have hphase : l.bare.phase = l.phase.bare := rfl
    rw [hcancelled, hnow, hdeadline, hphase, stop_bare, breakDown_bare]
    cases l.phase with
    | stopped => rfl
    | opening =>
      cases l.deadline? h.now with
      | some deadline => exact congrArg some (h.openStream_bare id l deadline)
      | none => rfl
    | streaming items deadline =>
      have hstream := h.stepStream_bare id l items deadline
      simp only [Phase.bare]
      rw [hstream]
      split <;> rfl
    | backingOff until_ =>
      have hwake : h.bare.setPhase id .opening = (h.setPhase id .opening).bare :=
        h.setPhase_bare id .opening
      simp only [Phase.bare]
      rw [hwake]
      split
      · rfl
      · split <;> rfl

theorem stepOnce_bare (h : Hub) (id : Nat) : h.bare.stepOnce id = (h.stepOnce id).bare := by
  rw [stepOnce, stepOnce, stepLoop_bare]
  cases h.stepLoop id <;> rfl

/-! ## Indices that calls ask by -/

namespace Blind

variable {h h' : Hub} {o : ListOptions}

theorem of_stores (hblind : h.Blind o) (hstores : h'.stores = h.stores) : h'.Blind o := by
  intro id s hs
  rw [store?, hstores] at hs
  exact hblind id s hs

/-- New stores have no index that looks at types. -/
theorem grow (hblind : h.Blind o) {cells : List StoreCell} (hstores : h'.stores = h.stores ++ cells)
    (hnew : ∀ cell ∈ cells, ∃ k, cell.store = .new k) : h'.Blind o := by
  intro id s hs
  obtain ⟨cell, hcell, rfl⟩ := Option.map_eq_some_iff.mp hs
  rw [hstores] at hcell
  rcases List.mem_append.mp (List.mem_of_getElem? hcell) with hold | hadded
  · obtain ⟨old, hold⟩ := List.getElem?_of_mem hold
    exact hblind old cell.store (by rw [store?, hold]; rfl)
  · obtain ⟨k, hk⟩ := hnew cell hadded
    rw [hk]
    exact Store.blind_new k o

/-- Events add no index. -/
theorem deliverAll (hblind : h.Blind o) (ds : List Delivery) : (h.deliverAll ds).Blind o := by
  have hevents (events : List Event) {s : Store} (hs : s.Blind o) :
      (events.foldl Store.apply s).Blind o := by
    induction events generalizing s with
    | nil => exact hs
    | cons e rest ih => exact ih (hs.apply e)
  intro id t ht
  obtain ⟨s, hs, rfl⟩ := Option.map_eq_some_iff.mp ((store?_deliverAll h ds id).symm.trans ht)
  exact hevents _ (hblind id s hs)

theorem tryStore (hblind : h.Blind o) {f : Store → Answer Store}
    (hf : ∀ s t, f s = .ok t → s.Blind o → t.Blind o) (id : Nat) :
    (h.tryStore id f).2.Blind o := by
  intro other t ht
  rw [store?_tryStore] at ht
  obtain ⟨s, hs, rfl⟩ := Option.map_eq_some_iff.mp ht
  have hs' := hblind other s hs
  split
  · split
    · next t hok => exact hf s t hok hs'
    · exact hs'
  · exact hs'

end Blind

end Hub

end WatchCache
