import Mathlib.Algebra.GroupWithZero.Nat
import WatchCache.Proofs.Cache.Extends

set_option autoImplicit false

/-!
# What the gauges show

A store sets the gauge of its kind after each of its events, to the number of the objects that it
holds itself.  The gauge is labelled with the kind alone, so the stores of an informer write to
one gauge, and it shows the size of the one that was told something last.
-/

namespace WatchCache

namespace Hub

/-! ## Inventories -/

/-- The kind of each store, and the objects that it holds. -/
def inventory (h : Hub) : List (Kind × Table String Object) :=
  h.stores.map fun cell => (cell.store.kind, cell.store.indexer.items)

/-- The written key of the kind of a store. -/
def label? (h : Hub) (id : Nat) : Option String := (h.store? id).map fun s => s.kind.key

/-- How many objects a store holds. -/
def sizeOf (h : Hub) (id : Nat) : Nat := ((h.store? id).map Store.size).getD 0

/-- The stores whose kind has a written key. -/
def labelled (h : Hub) (label : String) : List Nat :=
  (List.range h.stores.length).filter fun id => h.label? id = some label

/-- How many objects all stores of a kind hold. -/
def objectsOf (h : Hub) (label : String) : Nat := ((h.labelled label).map h.sizeOf).sum

section

variable {h r q : Hub} {ledger : List Delivery}

theorem getElem?_inventory (h : Hub) (id : Nat) :
    h.inventory[id]? = (h.store? id).map fun s => (s.kind, s.indexer.items) := by
  rw [inventory, store?, List.getElem?_map, Option.map_map]
  rfl

theorem label?_eq (h : Hub) (id : Nat) : h.label? id = (h.inventory[id]?).map fun p => p.1.key := by
  rw [getElem?_inventory, label?, Option.map_map]
  rfl

theorem sizeOf_eq (h : Hub) (id : Nat) :
    h.sizeOf id = ((h.inventory[id]?).map fun p => p.2.length).getD 0 := by
  rw [getElem?_inventory, sizeOf, Option.map_map]
  rfl

theorem length_inventory (h : Hub) : h.inventory.length = h.stores.length := List.length_map _

theorem mem_labelled {label : String} {id : Nat} :
    id ∈ h.labelled label ↔ h.label? id = some label := by
  rw [labelled, List.mem_filter, List.mem_range, decide_eq_true_eq, and_iff_right_iff_imp]
  intro hlabel
  obtain ⟨s, hs, -⟩ := Option.map_eq_some_iff.mp hlabel
  obtain ⟨cell, hcell, -⟩ := Option.map_eq_some_iff.mp hs
  exact (List.getElem?_eq_some_iff.mp hcell).1

theorem nodup_labelled (h : Hub) (label : String) : (h.labelled label).Nodup :=
  List.nodup_range.filter _

theorem inventory_addIndex (h : Hub) (id : Nat) (name : String) (extract : Extractor) :
    (h.tryStore id (·.addIndex name extract)).2.inventory = h.inventory := by
  refine List.ext_getElem? fun other => ?_
  rw [getElem?_inventory, getElem?_inventory, store?_tryStore, Option.map_map]
  congr 1
  funext s
  by_cases heq : id = other
  · simp only [Function.comp_apply, heq, if_true, Store.addIndex, Indexer.addIndex]
    cases s.indexer.hasIndex name <;> rfl
  · simp only [Function.comp_apply, heq, if_false]

/-- An event changes what its store holds, but no kind. -/
theorem label?_apply (h : Hub) (id : Nat) (e : Event) (other : Nat) :
    (h.apply id e).label? other = h.label? other := by
  rw [label?, label?, store?_apply, Option.map_map]
  congr 1
  funext s
  by_cases heq : id = other
  · simp only [Function.comp_apply, heq, if_true]
    cases e <;> rfl
  · simp only [Function.comp_apply, heq, if_false]

/-- No event was applied: the gauges show what they showed, and the stores hold what they held,
but for empty ones that were added. -/
structure Unfed (h r : Hub) : Prop where
  gauges : ∀ s, r.gauge? s = h.gauge? s
  inventory : ∃ added, r.inventory = h.inventory ++ added ∧ ∀ p ∈ added, p.2 = []

theorem Unfed.of_inventory (hgauges : ∀ s, r.gauge? s = h.gauge? s)
    (hinventory : r.inventory = h.inventory) : Unfed h r :=
  ⟨hgauges, [], by rw [hinventory, List.append_nil], by simp⟩

theorem Unfed.trans (hr : Unfed h r) (hq : Unfed r q) : Unfed h q where
  gauges := fun s => (hq.gauges s).trans (hr.gauges s)
  inventory := by
    obtain ⟨added, hadded, hempty⟩ := hr.inventory
    obtain ⟨more, hmore, hempty'⟩ := hq.inventory
    refine ⟨added ++ more, by rw [hmore, hadded, List.append_assoc], fun p hp => ?_⟩
    exact (List.mem_append.mp hp).elim (hempty p) (hempty' p)

/-- Stores that are added are empty, and indices hold no objects of their own. -/
theorem Extends.unfed {adds : String → Extractor → Prop} {h r : Hub} (hr : Extends adds h r) :
    Unfed h r := by
  induction hr with
  | @grown h r cells hstores hnew hgauges =>
    refine ⟨hgauges, cells.map fun cell => (cell.store.kind, cell.store.indexer.items), ?_,
      fun p hp => ?_⟩
    · rw [inventory, hstores, List.map_append]
      rfl
    · obtain ⟨cell, hcell, rfl⟩ := List.mem_map.mp hp
      obtain ⟨k, hk⟩ := hnew cell hcell
      rw [hk]
      rfl
  | indexed h id _ =>
    exact .of_inventory (gauge?_of_readings (h.readings_tryStore id _))
      (h.inventory_addIndex id _ _)
  | trans _ _ hfirst hsecond => exact hfirst.trans hsecond

theorem Unfed.length_le (hr : Unfed h r) : h.stores.length ≤ r.stores.length := by
  obtain ⟨added, hadded, -⟩ := hr.inventory
  have hlength := congrArg List.length hadded
  rw [List.length_append, length_inventory, length_inventory] at hlength
  omega

theorem Unfed.inventory_eq (hr : Unfed h r) {id : Nat} (hid : id < h.stores.length) :
    r.inventory[id]? = h.inventory[id]? := by
  obtain ⟨added, hadded, -⟩ := hr.inventory
  rw [hadded, List.getElem?_append_left (Nat.lt_of_lt_of_eq hid h.length_inventory.symm)]

theorem Unfed.label?_eq (hr : Unfed h r) {id : Nat} (hid : id < h.stores.length) :
    r.label? id = h.label? id := by
  rw [Hub.label?_eq, Hub.label?_eq, hr.inventory_eq hid]

theorem Unfed.sizeOf_eq (hr : Unfed h r) {id : Nat} (hid : id < h.stores.length) :
    r.sizeOf id = h.sizeOf id := by
  rw [Hub.sizeOf_eq, Hub.sizeOf_eq, hr.inventory_eq hid]

/-! ## The store that was told something last -/

/-- The last delivery to a store whose kind has a written key. -/
def lastFor? (h : Hub) (ledger : List Delivery) (label : String) : Option Delivery :=
  (ledger.filter fun d => h.label? d.store = some label).getLast?

/-- Each gauge shows the size of the store of its kind that was told something last. -/
structure Gauged (h : Hub) (ledger : List Delivery) : Prop where
  known : ∀ d ∈ ledger, d.store < h.stores.length
  shown : ∀ label, h.gauge? (.objects label) =
    (h.lastFor? ledger label).map fun d => h.sizeOf d.store

theorem mem_of_lastFor? {label : String} {d : Delivery} (hd : h.lastFor? ledger label = some d) :
    d ∈ ledger ∧ h.label? d.store = some label := by
  obtain ⟨hmem, hlabel⟩ := List.mem_filter.mp (List.mem_of_getLast? hd)
  exact ⟨hmem, of_decide_eq_true hlabel⟩

theorem lastFor?_congr (hsame : ∀ d ∈ ledger, r.label? d.store = h.label? d.store)
    (label : String) : r.lastFor? ledger label = h.lastFor? ledger label := by
  unfold lastFor?
  rw [List.filter_congr fun d hd => by rw [hsame d hd]]

theorem lastFor?_concat (h : Hub) (ledger : List Delivery) (d : Delivery) (label : String) :
    h.lastFor? (ledger ++ [d]) label =
      if h.label? d.store = some label then some d else h.lastFor? ledger label := by
  unfold lastFor?
  rw [List.filter_append]
  split
  · next hlabel => simp [hlabel]
  · next hlabel => simp [hlabel]

/-- As long as no event is applied, the gauges stay right. -/
theorem Gauged.unfed (hh : h.Gauged ledger) (hr : Unfed h r) : r.Gauged ledger where
  known := fun d hd => Nat.lt_of_lt_of_le (hh.known d hd) hr.length_le
  shown := by
    intro label
    rw [hr.gauges, hh.shown, lastFor?_congr fun d hd => hr.label?_eq (hh.known d hd)]
    refine Option.map_congr fun d hd => ?_
    exact (hr.sizeOf_eq (hh.known d (mem_of_lastFor? hd).1)).symm

/-- An event is applied: its store was told something last, and sets the gauge of its kind. -/
theorem Gauged.deliver (hh : h.Gauged ledger) {d : Delivery} (hd : d.store < h.stores.length) :
    (h.apply d.store d.event).Gauged (ledger ++ [d]) := by
  have hlength : (h.apply d.store d.event).stores.length = h.stores.length := by
    simpa [wiring] using congrArg (fun w => w.1.length) (h.wiring_apply d.store d.event)
  obtain ⟨s, hs⟩ : ∃ s, h.store? d.store = some s := by
    rw [store?, List.getElem?_eq_getElem hd]
    exact ⟨_, rfl⟩
  have hlabel : h.label? d.store = some s.kind.key := by
    rw [label?, hs]
    rfl
  refine ⟨fun d' hd' => ?_, fun label => ?_⟩
  · rw [hlength]
    rcases List.mem_append.mp hd' with hold | hnew
    · exact hh.known d' hold
    · exact List.mem_singleton.mp hnew ▸ hd
  · rw [gauge?_apply hs, lastFor?_congr fun d' _ => h.label?_apply d.store d.event d'.store,
      lastFor?_concat, hlabel]
    by_cases hkind : label = s.kind.key
    · subst hkind
      simp [sizeOf, store?_apply, hs]
    · -- the gauge of another kind, whose last store is another one
      have hother : some s.kind.key ≠ some label := fun heq => hkind (Option.some.inj heq).symm
      rw [if_neg (by simpa [Series.objects] using hkind), if_neg hother, hh.shown]
      refine Option.map_congr fun d' hd' => ?_
      have hne : d.store ≠ d'.store := by
        intro heq
        have hlast := (mem_of_lastFor? hd').2
        rw [← heq, hlabel] at hlast
        exact hother hlast
      rw [sizeOf, sizeOf, store?_apply]
      simp [hne]

/-- The stores of a kind hold what one of them holds, and what the others hold. -/
theorem objectsOf_eq {label : String} {id : Nat} (hid : h.label? id = some label) :
    h.objectsOf label =
      h.sizeOf id + (((h.labelled label).filter (· ≠ id)).map h.sizeOf).sum := by
  have hperm : (h.labelled label).Perm (id :: (h.labelled label).filter (· ≠ id)) := by
    have herase := List.perm_cons_erase (mem_labelled.mpr hid)
    rw [(h.nodup_labelled label).erase_eq_filter] at herase
    simpa [bne, BEq.beq] using herase
  rw [objectsOf, (hperm.map h.sizeOf).sum_nat, List.map_cons, List.sum_cons]

end

end Hub

namespace Cache

/-! ## Uses -/

theorem gives_low {base c : Cache} (hc : Fenced base c) (u : Use) :
    c.gives u = [] ∨ ∃ d, c.gives u = [d] ∧ d.store < c.hub.stores.length := by
  cases u with
  | move m =>
    cases m with
    | act a =>
      have hlow := (delivers_low hc.sound a).1
      cases a with
      | step loop =>
        cases hd : c.hub.delivery? loop with
        | none => exact Or.inl (congrArg Option.toList hd)
        | some d =>
          have hone : c.delivers (.step loop) = [d] := congrArg Option.toList hd
          exact Or.inr ⟨d, hone, hlow d (hone ▸ List.mem_singleton_self d)⟩
      | request _ | poll _ | outside _ | addIndex _ _ _ | reconnect _ => exact Or.inl rfl
    | subscribe _ | unsubscribe _ | receive _ | addIndex _ _ _ => exact Or.inl rfl
  | get _ _ | list _ _ | informer _ | index _ _ _ => exact Or.inl rfl

theorem Pristine.gauged {c : Cache} (hc : c.Pristine) (uses : List Use) :
    (c.useAll uses).hub.Gauged (c.deliveries uses) := by
  induction uses using List.reverseRecOn with
  | nil => exact ⟨by simp [deliveries], by simp [deliveries, Hub.gauge?, Hub.lastFor?, hc.metrics]⟩
  | append_singleton uses u ih =>
    rw [useAll_concat, deliveries_concat]
    have hunfed := ((c.useAll uses).extends_use u).unfed
    rcases gives_low (hc.toAssembled.fenced_useAll uses) u with hnothing | ⟨d, hone, hd⟩
    · rw [hnothing] at hunfed ⊢
      rw [List.append_nil]
      exact ih.unfed hunfed
    · rw [hone] at hunfed ⊢
      exact (ih.deliver hd).unfed hunfed

/-- What the gauge of the objects of a kind shows.

However a cache is used, and whichever of its stores are told something between: the gauge of a
kind is there exactly if one of the stores of this kind was told something, and then shows how
many objects that store of the kind holds which was told something last.  All stores of the kind
together hold what the gauge shows and what the others hold besides; so the gauge is right exactly
as long as all others are empty, as it always is for a kind that has a single store. -/
theorem gauge_shows_store_told_last {c : Cache} (hc : c.Pristine) (uses : List Use)
    (label : String) :
    let last := (c.useAll uses).hub
    (last.gauge? (.objects label) = none ↔
      ∀ d ∈ c.deliveries uses, last.label? d.store ≠ some label) ∧
    ∀ d, last.lastFor? (c.deliveries uses) label = some d →
      last.gauge? (.objects label) = some (last.sizeOf d.store) ∧
      last.objectsOf label = last.sizeOf d.store +
        (((last.labelled label).filter (· ≠ d.store)).map last.sizeOf).sum ∧
      (last.gauge? (.objects label) = some (last.objectsOf label) ↔
        ∀ id ∈ last.labelled label, id ≠ d.store → last.sizeOf id = 0) := by
  intro last
  have hgauged : last.Gauged (c.deliveries uses) := hc.gauged uses
  refine ⟨?_, fun d hd => ?_⟩
  · rw [hgauged.shown, Option.map_eq_none_iff, Hub.lastFor?, List.getLast?_eq_none_iff,
      List.filter_eq_nil_iff]
    simp
  · have hshown : last.gauge? (.objects label) = some (last.sizeOf d.store) := by
      rw [hgauged.shown, hd]
      rfl
    have htotal := Hub.objectsOf_eq (Hub.mem_of_lastFor? hd).2
    refine ⟨hshown, htotal, ?_⟩
    rw [hshown, Option.some_inj, htotal, Nat.left_eq_add, List.sum_eq_zero_iff_forall_eq_nat]
    simp only [List.forall_mem_map, List.mem_filter, decide_eq_true_eq, and_imp]

/-- Two namespaces: as long as only the first was told something, the gauge is right; after the
second was told of one object as well, the gauge shows one object of three. -/
theorem gauge_shows_store_told_last_two_namespaces :
    let widget : Kind := ⟨"example.io", "v1", "Widget"⟩
    let object (ns name : String) : Object := { metadata := { name := some name, ns := some ns } }
    let new : Cache := { connector := Script.connector { kinds := [(widget, true)] } }
    let c : Cache := new.withNamespaces ["ops", "prod"]
    let tell (store : Nat) (objects : List Object) : List Use :=
      [.move (.act (.outside (.feed store (.restarted objects)))), .move (.act (.step store))]
    let opened : List Use :=
      [.move (.act (.request (.informer widget))), .move (.act (.request (.start "main"))),
        .move (.act (.step 0)), .move (.act (.step 1))]
    let early : List Use := opened ++ tell 0 [object "ops" "w1", object "ops" "w2"]
    let late : List Use := early ++ tell 1 [object "prod" "w3"]
    let shown (uses : List Use) : Option Nat := (c.useAll uses).hub.gauge? (.objects widget.key)
    let held (uses : List Use) : Nat := (c.useAll uses).hub.objectsOf widget.key
    c.Pristine ∧ shown opened = none ∧ shown early = some (held early) ∧ held early = 2 ∧
      shown late = some 1 ∧ held late = 1 + 2 ∧ shown late ≠ some (held late) := by
  intro widget object new c tell opened early late shown held
  have hc : c.Pristine := (pristine_new _ {} {}).withNamespaces ["ops", "prod"]
  have hlast : ((c.useAll early).hub.lastFor? (c.deliveries early) widget.key).map
        Hub.Delivery.store = some 0 ∧
      ((c.useAll late).hub.lastFor? (c.deliveries late) widget.key).map Hub.Delivery.store =
        some 1 := ⟨by decide +kernel, by decide +kernel⟩
  have hlabelled : (c.useAll early).hub.labelled widget.key = [0, 1] ∧
      (c.useAll late).hub.labelled widget.key = [0, 1] := ⟨by decide +kernel, by decide +kernel⟩
  have hsizes : (c.useAll early).hub.sizeOf 0 = 2 ∧ (c.useAll early).hub.sizeOf 1 = 0 ∧
      (c.useAll late).hub.sizeOf 0 = 2 ∧ (c.useAll late).hub.sizeOf 1 = 1 :=
    ⟨by decide +kernel, by decide +kernel, by decide +kernel, by decide +kernel⟩
  obtain ⟨⟨first, hfirst, hstore⟩, second, hsecond, hstore'⟩ :=
    And.intro (Option.map_eq_some_iff.mp hlast.1) (Option.map_eq_some_iff.mp hlast.2)
  obtain ⟨hnothing, -⟩ := gauge_shows_store_told_last hc opened widget.key
  obtain ⟨hearly, htotal, hright⟩ :=
    (gauge_shows_store_told_last hc early widget.key).2 first hfirst
  obtain ⟨hlate, htotal', hright'⟩ :=
    (gauge_shows_store_told_last hc late widget.key).2 second hsecond
  rw [hstore, hlabelled.1] at htotal hright
  rw [hstore', hlabelled.2] at htotal' hright'
  rw [hstore', hsizes.2.2.2] at hlate
  refine ⟨hc, hnothing.mpr (by decide +kernel), hright.mpr fun id hid hne => ?_, ?_, hlate, ?_,
    fun heq => ?_⟩
  · rcases List.mem_pair.mp hid with rfl | rfl
    · exact absurd rfl hne
    · exact hsizes.2.1
  · rw [show held early = _ from htotal]
    simp [hsizes]
  · rw [show held late = _ from htotal']
    simp [hsizes]
  · have hempty := hright'.mp heq 0 List.mem_cons_self (by decide)
    rw [hsizes.2.2.1] at hempty
    cases hempty

/-- A store of one namespace was told of an object, and then that of another one of none: the gauge
shows no object, while the cache holds one. -/
theorem gauge_forgets_other_namespaces :
    let widget : Kind := ⟨"example.io", "v1", "Widget"⟩
    let object : Object := { metadata := { name := some "w1", ns := some "ops" } }
    let new : Cache := { connector := Script.connector { kinds := [(widget, true)] } }
    let c : Cache := new.withNamespaces ["ops", "prod"]
    let tell (store : Nat) (objects : List Object) : List Use :=
      [.move (.act (.outside (.feed store (.restarted objects)))), .move (.act (.step store))]
    let uses : List Use :=
      [.move (.act (.request (.informer widget))), .move (.act (.request (.start "main"))),
        .move (.act (.step 0)), .move (.act (.step 1))] ++ tell 0 [object] ++ tell 1 []
    let last := (c.useAll uses).hub
    c.Pristine ∧ last.label? 0 = some widget.key ∧ last.label? 1 = some widget.key ∧
      (c.deliveries uses).map (fun d => (d.store, d.event)) =
        [(0, .restarted [object]), (1, .restarted [])] ∧
      last.gauge? (.objects widget.key) = some 0 ∧ last.objectsOf widget.key = 1 := by
  intro widget object new c tell uses last
  exact ⟨(pristine_new _ {} {}).withNamespaces ["ops", "prod"], by decide +kernel,
    by decide +kernel, by decide +kernel, by decide +kernel, by decide +kernel⟩

end Cache

end WatchCache
