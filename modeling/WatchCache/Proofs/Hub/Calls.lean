import WatchCache.Proofs.Hub.Wiring
import WatchCache.Proofs.Store.Run

set_option autoImplicit false

/-!
# Calls on a hub

Events and indices reach the stores of a hub from outside, and subscribers come, receive and
leave.  `Hub.run` is the hub after a list of such calls, and `hears` is what one subscriber was
given by them.  A store of the hub is the store after the calls that were made on it.
-/

namespace WatchCache

namespace Hub

/-! ## Calls -/

/-- A call on a store or for a subscriber. -/
inductive Call where
  | on (store : Nat) (call : Store.Call)
  | subscribe (topic : Nat)
  | unsubscribe (sub : Nat)
  | receive (sub : Nat)

/-- The hub after a call. -/
def after (h : Hub) : Call → Hub
  | .on id (.apply e) => h.apply id e
  | .on id (.indexField field extract) => (h.tryStore id (·.indexField field extract)).2
  | .on id (.addIndex name extract) => (h.tryStore id (·.addIndex name extract)).2
  | .subscribe topic => (h.subscribe topic).2
  | .unsubscribe sub => h.unsubscribe sub
  | .receive sub => (h.receive sub).2

/-- The hub after calls. -/
def run (h : Hub) (calls : List Call) : Hub := calls.foldl after h

/-- What a subscriber is given by a call. -/
def heard (h : Hub) (sub : Nat) : Call → List Received
  | .receive other => if other = sub then (h.receive sub).1 else []
  | _ => []

/-- What a subscriber is given by calls, in order. -/
def hears (sub : Nat) : Hub → List Call → List Received
  | _, [] => []
  | h, call :: rest => h.heard sub call ++ hears sub (h.after call) rest

@[simp] theorem run_nil (h : Hub) : h.run [] = h := rfl

@[simp] theorem run_cons (h : Hub) (call : Call) (rest : List Call) :
    h.run (call :: rest) = (h.after call).run rest := rfl

theorem run_append (h : Hub) (first second : List Call) :
    h.run (first ++ second) = (h.run first).run second := List.foldl_append

theorem hears_append (sub : Nat) (h : Hub) (first second : List Call) :
    hears sub h (first ++ second) = hears sub h first ++ hears sub (h.run first) second := by
  induction first generalizing h with
  | nil => rfl
  | cons call rest ih => rw [List.cons_append, hears, hears, ih, run_cons, List.append_assoc]

@[simp] theorem wiring_after (h : Hub) (call : Call) : (h.after call).wiring = h.wiring := by
  cases call with
  | on id call =>
    cases call with
    | apply e => exact wiring_apply h id e
    | indexField field extract => exact wiring_tryStore h id _
    | addIndex name extract => exact wiring_tryStore h id _
  | subscribe topic => rfl
  | unsubscribe sub => rfl
  | receive sub => exact wiring_receive h sub

@[simp] theorem wiring_run (h : Hub) (calls : List Call) : (h.run calls).wiring = h.wiring := by
  induction calls generalizing h with
  | nil => rfl
  | cons call rest ih => rw [run_cons, ih, wiring_after]

theorem length_topics_run (h : Hub) (calls : List Call) :
    (h.run calls).topics.length = h.topics.length :=
  congrArg Prod.snd (wiring_run h calls)

/-! ## Stores after calls -/

theorem store?_setStore (h : Hub) (id : Nat) (s : Store) (other : Nat) :
    (h.setStore id s).store? other =
      (h.store? other).map fun t => if id = other then s else t := by
  simp only [store?, setStore, List.getElem?_modify, Option.map_eq_map, Option.map_map]
  congr 1
  funext cell
  simp only [Function.comp_apply]
  split <;> rfl

theorem stores_apply {h : Hub} {id : Nat} {cell : StoreCell} (hcell : h.stores[id]? = some cell)
    (e : Event) : (h.apply id e).stores = (h.setStore id (cell.store.apply e)).stores := by
  simp only [apply, hcell]
  split <;> rfl

theorem store?_apply (h : Hub) (id : Nat) (e : Event) (other : Nat) :
    (h.apply id e).store? other =
      (h.store? other).map fun s => if id = other then s.apply e else s := by
  cases hcell : h.stores[id]? with
  | none =>
    have hsame : h.apply id e = h := by simp only [apply, hcell]
    rw [hsame]
    by_cases heq : id = other
    · simp [store?, ← heq, hcell]
    · simp [heq]
  | some cell =>
    have hset := store?_setStore h id (cell.store.apply e) other
    rw [store?, stores_apply hcell]
    refine hset.trans ?_
    by_cases heq : id = other
    · simp [store?, ← heq, hcell]
    · simp [heq]

theorem store?_tryStore (h : Hub) (id : Nat) (f : Store → Answer Store) (other : Nat) :
    (h.tryStore id f).2.store? other =
      (h.store? other).map fun s =>
        if id = other then (match f s with | .ok t => t | .error _ => s) else s := by
  by_cases heq : id = other
  · subst heq
    unfold tryStore
    cases hs : h.store? id with
    | none => simp [hs]
    | some s =>
      cases hf : f s with
      | error e => simp [hs, hf]
      | ok t => simp [hs, hf, store?_setStore]
  · unfold tryStore
    cases hs : h.store? id with
    | none => simp [heq]
    | some s =>
      cases hf : f s with
      | error e => simp [hf, heq]
      | ok t => simp [hf, store?_setStore, heq]

/-- The calls that are made on one store. -/
def callsOn (id : Nat) (calls : List Call) : List Store.Call :=
  calls.filterMap fun call =>
    match call with
    | .on other call => if other = id then some call else none
    | _ => none

theorem store?_after_on (h : Hub) (id : Nat) (call : Store.Call) (other : Nat) :
    (h.after (.on id call)).store? other =
      (h.store? other).map fun s => if id = other then s.after call else s := by
  cases call with
  | apply e => exact store?_apply h id e other
  | indexField field extract => exact store?_tryStore h id _ other
  | addIndex name extract => exact store?_tryStore h id _ other

theorem store?_receive (h : Hub) (sub id : Nat) : (h.receive sub).2.store? id = h.store? id := by
  unfold receive
  split
  · split <;> rfl
  · rfl

/-- A store changes by the calls that are made on it and by no others. -/
theorem store?_run (h : Hub) (calls : List Call) (id : Nat) :
    (h.run calls).store? id =
      (h.store? id).map fun s => (callsOn id calls).foldl Store.after s := by
  induction calls generalizing h with
  | nil => simp [callsOn]
  | cons call rest ih =>
    rw [run_cons, ih]
    cases call with
    | on other call =>
      rw [store?_after_on, Option.map_map]
      congr 1
      funext s
      by_cases heq : other = id <;> simp [callsOn, heq]
    | subscribe topic => rfl
    | unsubscribe sub => rfl
    | receive sub =>
      show ((h.receive sub).2.store? id).map _ = _
      rw [store?_receive]
      rfl

theorem store?_run_newStore (h : Hub) (kind : Kind) (buffer : Nat) (calls : List Call) :
    ((h.newStore kind buffer).2.run calls).store? (h.newStore kind buffer).1 =
      some (Store.run kind (callsOn (h.newStore kind buffer).1 calls)) := by
  have hnew : (h.newStore kind buffer).2.store? (h.newStore kind buffer).1 = some (.new kind) := by
    simp [newStore, addStore, addTopic, store?]
  rw [store?_run, hnew]
  rfl

end Hub

end WatchCache
