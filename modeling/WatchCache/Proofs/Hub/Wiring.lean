import WatchCache.Proofs.Hub.Step

set_option autoImplicit false

/-!
# Which store publishes where

The wiring of a hub is the topic of every store, and how many topics there are.  It only changes
when a topic or a store is added; everything else that a hub does, the steps of its loops
included, leaves it alone.  So every store of a reachable hub publishes on a topic that exists,
and a new topic has no publisher yet.
-/

namespace WatchCache.Hub

/-- The topic of every store, and the number of topics. -/
def wiring (h : Hub) : List Nat × Nat := (h.stores.map StoreCell.topic, h.topics.length)

/-! ## Parts -/

@[simp] theorem wiring_addTopic (h : Hub) (buffer : Nat) :
    (h.addTopic buffer).2.wiring = (h.wiring.1, h.wiring.2 + 1) := by
  simp [addTopic, wiring]

@[simp] theorem wiring_addStore (h : Hub) (kind : Kind) (topic : Nat) :
    (h.addStore kind topic).2.wiring = (h.wiring.1 ++ [topic], h.wiring.2) := by
  simp [addStore, wiring]

@[simp] theorem wiring_setStore (h : Hub) (id : Nat) (s : Store) :
    (h.setStore id s).wiring = h.wiring := by
  refine Prod.ext (List.ext_getElem? fun i => ?_) rfl
  simp only [wiring, setStore, List.getElem?_map, List.getElem?_modify]
  cases h.stores[i]? with
  | none => rfl
  | some cell =>
    simp only [Option.map_eq_map, Option.map_some]
    split <;> rfl

@[simp] theorem wiring_publish (h : Hub) (topic : Nat) (changes : List Change) :
    (h.publish topic changes).wiring = h.wiring := by
  simp [publish, wiring]

@[simp] theorem wiring_apply (h : Hub) (id : Nat) (e : Event) :
    (h.apply id e).wiring = h.wiring := by
  unfold apply
  cases h.stores[id]? with
  | none => rfl
  | some cell =>
    have hset := wiring_setStore h id (cell.store.apply e)
    dsimp only
    split
    · exact (wiring_publish _ _ _).trans hset
    · exact hset

@[simp] theorem wiring_tryStore (h : Hub) (id : Nat) (f : Store → Answer Store) :
    (h.tryStore id f).2.wiring = h.wiring := by
  unfold tryStore
  cases h.store? id with
  | none => rfl
  | some s =>
    dsimp only
    cases f s with
    | error e => rfl
    | ok t => exact wiring_setStore h id t

@[simp] theorem wiring_list (h : Hub) (id : Nat) (o : ListOptions) :
    (h.list id o).2.wiring = h.wiring := by
  unfold list
  cases h.store? id with
  | none => rfl
  | some s =>
    dsimp only
    cases s.list o <;> rfl

@[simp] theorem wiring_receive (h : Hub) (sub : Nat) : (h.receive sub).2.wiring = h.wiring := by
  unfold receive
  split
  · split <;> rfl
  · rfl

theorem wiring_feed {h h' : Hub} {source : Nat} {e : Event} (hfeed : h.feed source e = .ok h') :
    h'.wiring = h.wiring := by
  obtain ⟨queue, held, turns, -, rfl⟩ := feed_ok hfeed
  rfl

/-! ## Loops -/

theorem wiring_takeItem (h : Hub) (id : Nat) (l : Loop) (item : Item) (items : List Item)
    (deadline : Option Nat) : (h.takeItem id l item items deadline).wiring = h.wiring := by
  cases item with
  | event e => exact wiring_apply _ _ _
  | failure e => rfl
  | ended => rfl

/-- No step of a loop changes the wiring. -/
theorem wiring_stepLoop {h h' : Hub} {id : Nat} (hstep : h.stepLoop id = some h') :
    h'.wiring = h.wiring := by
  obtain ⟨l, -, hstep⟩ := Step.of_stepLoop hstep
  cases hstep with
  | start _ _ => rfl
  | breakDown _ _ => rfl
  | stop _ _ _ => rfl
  | @item item items deadline _ _ => exact wiring_takeItem h id l item items deadline
  | event _ _ _ => exact wiring_apply _ _ _
  | resync _ _ _ _ => rfl
  | wake _ _ _ => rfl

/-! ## Reachable hubs -/

/-- The hubs that come about from the empty one.  A store is only ever added with a topic that
exists. -/
inductive Reachable : Hub → Prop
  | empty : Reachable {}
  | addTopic {h : Hub} (buffer : Nat) : Reachable h → Reachable (h.addTopic buffer).2
  | addStore {h : Hub} (kind : Kind) {topic : Nat} : Reachable h → topic < h.topics.length →
      Reachable (h.addStore kind topic).2
  | addSource {h : Hub} (source : Source) : Reachable h → Reachable (h.addSource source).2
  | spawn {h : Hub} (loop : Loop) : Reachable h → Reachable (h.spawn loop).2
  | addWait {h : Hub} (store : Nat) (token : Token) : Reachable h →
      Reachable (h.addWait store token).2
  | resolveWaits {h : Hub} : Reachable h → Reachable h.resolveWaits
  | cancel {h : Hub} (token : Token) : Reachable h → Reachable (h.cancel token)
  | advance {h : Hub} (ms : Nat) : Reachable h → Reachable (h.advance ms)
  | count {h : Hub} (series : Series) : Reachable h → Reachable (h.count series)
  | list {h : Hub} (id : Nat) (o : ListOptions) : Reachable h → Reachable (h.list id o).2
  | apply {h : Hub} (id : Nat) (e : Event) : Reachable h → Reachable (h.apply id e)
  | addIndex {h : Hub} (id : Nat) (name : String) (extract : Extractor) : Reachable h →
      Reachable (h.tryStore id (·.addIndex name extract)).2
  | subscribe {h : Hub} (topic : Nat) : Reachable h → Reachable (h.subscribe topic).2
  | unsubscribe {h : Hub} (sub : Nat) : Reachable h → Reachable (h.unsubscribe sub)
  | receive {h : Hub} (sub : Nat) : Reachable h → Reachable (h.receive sub).2
  | feed {h h' : Hub} (source : Nat) (e : Event) : Reachable h → h.feed source e = .ok h' →
      Reachable h'
  | release {h : Hub} (source : Nat) : Reachable h → Reachable (h.release source)
  | step {h h' : Hub} (id : Nat) : Reachable h → h.stepLoop id = some h' → Reachable h'

/-- Every store publishes on a topic that exists. -/
theorem Reachable.topic_lt {h : Hub} (hh : h.Reachable) :
    ∀ topic ∈ h.wiring.1, topic < h.wiring.2 := by
  induction hh with
  | empty => simp [wiring]
  | addTopic buffer _ ih =>
    rw [wiring_addTopic]
    exact fun topic hmem => Nat.lt_succ_of_lt (ih topic hmem)
  | addStore kind _ hlt ih =>
    rw [wiring_addStore]
    intro topic hmem
    rcases List.mem_append.mp hmem with hold | hnew
    · exact ih topic hold
    · exact List.mem_singleton.mp hnew ▸ hlt
  | addSource _ _ ih => exact ih
  | spawn _ _ ih => exact ih
  | addWait _ _ _ ih => exact ih
  | resolveWaits _ ih => exact ih
  | cancel _ _ ih => exact ih
  | advance _ _ ih => exact ih
  | count _ _ ih => exact ih
  | list id o _ ih => exact (wiring_list _ id o).symm ▸ ih
  | apply id e _ ih => exact (wiring_apply _ id e).symm ▸ ih
  | addIndex id name extract _ ih => exact (wiring_tryStore _ id _).symm ▸ ih
  | subscribe _ _ ih => exact ih
  | unsubscribe _ _ ih => exact ih
  | receive sub _ ih => exact (wiring_receive _ sub).symm ▸ ih
  | feed _ _ _ hfeed ih => exact (wiring_feed hfeed).symm ▸ ih
  | release _ _ ih => exact ih
  | step _ _ hstep ih => exact (wiring_stepLoop hstep).symm ▸ ih

end WatchCache.Hub
