import WatchCache.Proofs.Cache.Gauges
import WatchCache.Proofs.Cache.Types

set_option autoImplicit false

/-!
# What all stores were told

Whatever callers do, every store of a cache holds what its deliveries make of an empty table:
calls open stores, which were told nothing, and add indices, which change no table.
-/

namespace WatchCache

theorem Store.distinct_apply {s : Store} (hs : s.indexer.items.Distinct) (e : Event) :
    (s.apply e).indexer.items.Distinct := by
  cases e with
  | applied o => exact hs.insert o.key o
  | deleted o =>
    show (s.indexer.remove o.key).items.Distinct
    unfold Indexer.remove
    split
    · exact hs
    · exact hs.erase o.key
  | restarted objects => exact Table.distinct_ofPairs _

namespace Hub

/-- The objects of every store are those that a ledger makes of an empty table. -/
def Recorded (h : Hub) (ledger : List Delivery) : Prop :=
  ∀ id s, h.store? id = some s →
    s.indexer.items.Distinct ∧ s.indexer.get? = Event.tableOf (eventsFor id ledger)

section

variable {h r : Hub} {ledger : List Delivery}

/-- A store that is there keeps its kind and its objects as long as no event is applied. -/
theorem Unfed.exists_store (hr : Unfed h r) {id : Nat} {s : Store} (hs : h.store? id = some s) :
    ∃ t, r.store? id = some t ∧ t.kind = s.kind ∧ t.indexer.items = s.indexer.items := by
  obtain ⟨cell, hcell, -⟩ := Option.map_eq_some_iff.mp hs
  have hsame := hr.inventory_eq (List.getElem?_eq_some_iff.mp hcell).1
  rw [getElem?_inventory, getElem?_inventory, hs] at hsame
  obtain ⟨t, ht, heq⟩ := Option.map_eq_some_iff.mp hsame
  exact ⟨t, ht, congrArg Prod.fst heq, congrArg Prod.snd heq⟩

/-- A store was there, or it is empty. -/
theorem Unfed.store_cases (hr : Unfed h r) {id : Nat} {t : Store} (ht : r.store? id = some t) :
    (∃ s, h.store? id = some s ∧ t.kind = s.kind ∧ t.indexer.items = s.indexer.items) ∨
      h.stores.length ≤ id ∧ t.indexer.items = [] := by
  cases hs : h.store? id with
  | some s =>
    obtain ⟨t', ht', hkind, hitems⟩ := hr.exists_store hs
    cases ht.symm.trans ht'
    exact Or.inl ⟨s, rfl, hkind, hitems⟩
  | none =>
    have hid : h.stores.length ≤ id := List.getElem?_eq_none_iff.mp (Option.map_eq_none_iff.mp hs)
    obtain ⟨added, hadded, hempty⟩ := hr.inventory
    have hnew : r.inventory[id]? = some (t.kind, t.indexer.items) := by
      rw [getElem?_inventory, ht]
      rfl
    have hlength : h.inventory.length ≤ id := Nat.le_trans (Nat.le_of_eq h.length_inventory) hid
    rw [hadded, List.getElem?_append_right hlength] at hnew
    exact Or.inr ⟨hid, hempty _ (List.mem_of_getElem? hnew)⟩

theorem Recorded.unfed (hh : h.Recorded ledger)
    (hlow : ∀ d ∈ ledger, d.store < h.stores.length) (hr : Unfed h r) : r.Recorded ledger := by
  intro id t ht
  rcases hr.store_cases ht with ⟨s, hs, -, hitems⟩ | ⟨hid, hitems⟩
  · obtain ⟨hdistinct, htable⟩ := hh id s hs
    refine ⟨hitems ▸ hdistinct, ?_⟩
    rw [← htable]
    exact congrArg Table.find? hitems
  · refine ⟨hitems ▸ Table.distinct_nil, ?_⟩
    rw [eventsFor_of_low hlow hid]
    exact congrArg Table.find? hitems

/-- An event is applied to its store. -/
theorem Recorded.deliver (hh : h.Recorded ledger) (d : Delivery) :
    (h.apply d.store d.event).Recorded (ledger ++ [d]) := by
  intro id t ht
  rw [store?_apply] at ht
  obtain ⟨s, hs, rfl⟩ := Option.map_eq_some_iff.mp ht
  obtain ⟨hdistinct, htable⟩ := hh id s hs
  rw [eventsFor_append]
  by_cases heq : d.store = id
  · rw [if_pos heq]
    have hone : eventsFor id [d] = [d.event] := by simp [eventsFor, heq]
    rw [hone, Event.tableOf_concat, ← htable]
    exact ⟨Store.distinct_apply hdistinct d.event, Store.get?_apply s d.event⟩
  · rw [if_neg heq]
    have hnone : eventsFor id [d] = [] := by simp [eventsFor, heq]
    rw [hnone, List.append_nil]
    exact ⟨hdistinct, htable⟩

end

end Hub

namespace Cache

/-- What a use does besides its deliveries leaves all kinds and objects alone. -/
theorem unfed_use (c : Cache) (u : Use) : Hub.Unfed (c.hub.deliverAll (c.gives u)) (c.use u).hub :=
  (c.extends_use u).unfed

theorem Pristine.recorded {c : Cache} (hc : c.Pristine) (hnew : c.hub.Recorded [])
    (uses : List Use) : (c.useAll uses).hub.Recorded (c.deliveries uses) := by
  induction uses using List.reverseRecOn with
  | nil => exact hnew
  | append_singleton uses u ih =>
    rw [useAll_concat, deliveries_concat]
    have hunfed := (c.useAll uses).unfed_use u
    have hlow := (hc.gauged uses).known
    rcases gives_low (hc.toAssembled.fenced_useAll uses) u with hnothing | ⟨d, hone, hd⟩
    · rw [hnothing] at hunfed ⊢
      rw [List.append_nil]
      exact ih.unfed hlow hunfed
    · rw [hone] at hunfed ⊢
      exact (ih.deliver d).unfed ((hc.gauged uses).deliver hd).known hunfed

/-! ## Construction -/

theorem connector_build {p : Plan} {connector : Connector} {c : Cache}
    (hbuild : p.build connector = .ok c) : c.connector = connector := by
  refine Plan.build_keeps (P := fun c => c.connector = connector) ?_ (fun _ hc => hc)
    (fun _ _ hc => hc) rfl hbuild
  intro c added k hc hadd
  rcases addDedicated_ok hadd with ⟨-, rfl⟩ | ⟨-, s, log, rfl⟩
  · exact hc
  · exact hc

end Cache

end WatchCache
