import WatchCache.Proofs.Hub.Ledger

set_option autoImplicit false

/-!
# The extent of a hub

The extent of a hub is how many stores and sources it has, and the loops that were started in it.
It grows when one of these is added; events, lists, indices, stimuli and the steps of loops leave
it alone.
-/

namespace WatchCache

/-- The loop as it was when it was started. -/
def Loop.fresh (l : Loop) : Loop := { l with phase := .opening }

namespace Hub

/-- How many stores and sources there are, and the loops that were started. -/
structure Extent where
  stores : Nat
  sources : Nat
  started : List Loop
  deriving DecidableEq, Repr

/-- The extent of a hub. -/
def extent (h : Hub) : Extent := ⟨h.stores.length, h.sources.length, h.loops.map Loop.fresh⟩

theorem extent_eq {h r : Hub} (hstores : h.stores.length = r.stores.length)
    (hsources : h.sources.length = r.sources.length) (hloops : h.loops = r.loops) :
    h.extent = r.extent := by
  rw [extent, extent, hstores, hsources, hloops]

/-! ## Stores -/

@[simp] theorem extent_setStore (h : Hub) (id : Nat) (s : Store) :
    (h.setStore id s).extent = h.extent :=
  extent_eq (List.length_modify _ _ _) rfl rfl

@[simp] theorem extent_tryStore (h : Hub) (id : Nat) (f : Store → Answer Store) :
    (h.tryStore id f).2.extent = h.extent := by
  unfold tryStore
  cases h.store? id with
  | none => rfl
  | some s =>
    dsimp only
    cases f s with
    | error e => rfl
    | ok t => exact extent_setStore h id t

@[simp] theorem extent_list (h : Hub) (id : Nat) (o : ListOptions) :
    (h.list id o).2.extent = h.extent := by
  unfold list
  cases h.store? id with
  | none => rfl
  | some s =>
    dsimp only
    cases s.list o <;> rfl

/-! ## Stimuli and steps -/

@[simp] theorem extent_meet (h : Hub) (s : Stimulus) : (h.meet s).extent = h.extent := by
  cases s with
  | advance ms => rfl
  | cancel token => rfl
  | feed source e =>
    rcases h.meet_feed_cases source e with hsame | ⟨queue, held, turns, -, hfed⟩
    · rw [hsame]
    · rw [hfed]
      exact extent_eq rfl List.length_set rfl

theorem Step.length_sources {h h' : Hub} {id : Nat} {l : Loop} (hstep : Step h id l h') :
    h'.sources.length = h.sources.length := by
  cases hstep with
  | start _ _ => exact List.length_modify _ _ _
  | breakDown _ _ => exact (List.length_modify _ _ _).trans (List.length_modify _ _ _)
  | stop _ _ _ => exact List.length_modify _ _ _
  | @item item items deadline _ _ =>
    cases item with
    | event e => exact congrArg List.length (apply_frame _ _ _).2.2.1
    | failure error => rfl
    | ended => rfl
  | event _ _ _ =>
    rw [takeEvent, (apply_frame _ _ _).2.2.1]
    exact List.length_set
  | resync _ _ _ _ => exact List.length_modify _ _ _
  | wake _ _ _ => rfl

@[simp] theorem extent_stepOnce (h : Hub) (id : Nat) : (h.stepOnce id).extent = h.extent := by
  cases hstep : h.stepLoop id with
  | none => rw [stepOnce_of_rest hstep]
  | some h' =>
    have hsame : h.stepOnce id = h' := by simp [stepOnce, hstep]
    obtain ⟨l, -, hrule⟩ := Step.of_stepLoop hstep
    have hstores := congrArg (List.length ·.1) (wiring_stepLoop hstep)
    simp only [wiring, List.length_map] at hstores
    rw [hsame, extent, extent, hstores, hrule.length_sources,
      hrule.loops_map (f := Loop.fresh) fun _ _ => rfl]

/-- The events that loops apply are for stores of the loops that were started. -/
theorem store_of_delivery? {h : Hub} {id : Nat} {d : Delivery} (hd : h.delivery? id = some d) :
    ∃ l ∈ h.extent.started, l.store = d.store := by
  obtain ⟨l, hl, -, -, -, hstore⟩ := delivery?_eq_some_iff.mp hd
  exact ⟨l.fresh, List.mem_map_of_mem (List.mem_of_getElem? hl), hstore.symm⟩

end Hub

end WatchCache
